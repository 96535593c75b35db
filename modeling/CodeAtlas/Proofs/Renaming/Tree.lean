import CodeAtlas.Proofs.Renaming.Annotation
import CodeAtlas.Syntax.Name
import CodeAtlas.Syntax.Walk

/-!
# One name for another in a tree

`Renaming.tree` is what is left of a tree if the old name is not told from the new one and the places
of its nodes do not matter. Its texts are those of the tree, renamed, except where a text also holds
what is written in import statements: those statements are compared apart, so nothing is left of their
insides and of the text of the nodes around them. Readers that look for children by field, by kind or
by keyword find the same children (`field?_tree` and its neighbours), and every text that they read is
the same under the new name (`string_text_tree`).
-/

namespace CodeAtlas

open Text Syntax
open CodeAtlas.TypeName (isIdentifierChar)

namespace Renaming

variable {r : Renaming} {s t : String}

/-! ## 1. Names in source text -/

theorem string_string (s : String) : r.string (r.string s) = r.string s := by
  rw [← String.toList_inj, toList_string, toList_string, text_text]

theorem string_onString {f : List Char → List Char} (h : ∀ cs, f (r.text cs) = r.text (f cs))
    (s : String) : onString f (r.string s) = r.string (onString f s) := by
  rw [onString, toList_string, h, ← string_ofList, onString]

/-- What is cut out of texts that are the same under the new name is the same under it. -/
theorem string_onString_congr {f : List Char → List Char}
    (hf : ∀ cs, f (r.text cs) = r.text (f cs)) (h : r.string s = r.string t) :
    r.string (onString f s) = r.string (onString f t) := by
  rw [← string_onString hf, h, string_onString hf]

theorem string_lastSegment_congr (h : r.string s = r.string t) :
    r.string (lastSegment s) = r.string (lastSegment t) :=
  string_onString_congr (r.afterLast_text (by decide)) h

theorem string_typeHead_congr (h : r.string s = r.string t) :
    r.string (typeHead s) = r.string (typeHead t) := by
  refine string_onString_congr (fun cs => ?_) h
  rw [beforeFirst_text r (by decide), trim_text, afterLast_text r (by decide)]

theorem string_trim_congr (h : r.string s = r.string t) :
    r.string (onString trim s) = r.string (onString trim t) :=
  string_onString_congr r.trim_text h

/-- A string literal is told by its first and its last character. -/
theorem string_stripQuotes_congr (h : r.string s = r.string t) :
    r.string (stripQuotes s) = r.string (stripQuotes t) := by
  refine string_onString_congr (fun cs => ?_) h
  cases cs with
  | nil => rw [text_nil]
  | cons c rest =>
    by_cases hc : isIdentifierChar c = true
    -- a name in front is no quotation mark, before or after
    · have hquote : ∀ {d : Char}, isIdentifierChar d = true →
          (d == '\'' || d == '"' || d == '\x60') = false := by
        intro d hd
        have hno : ∀ q ∈ ['\'', '"', '\x60'], (d == q) = false := fun q hq =>
          beq_eq_false_iff_ne.2 (ne_of_isIdentifierChar (by revert q; decide) hd)
        rw [hno _ (by decide), hno _ (by decide), hno _ (by decide)]
        rfl
      obtain ⟨d, rest', htext⟩ := List.exists_cons_of_ne_nil
        (mt r.text_eq_nil_iff.1 (List.cons_ne_nil c rest))
      have hd : isIdentifierChar d = true := by
        by_contra hd
        have hhead := (r.head?_text_eq_some_iff (s := c :: rest) (Bool.eq_false_iff.2 hd)).1
          (by rw [htext]; rfl)
        rw [List.head?_cons, Option.some_inj] at hhead
        exact hd (hhead ▸ hc)
      rw [htext]
      dsimp only
      rw [hquote hd, hquote hc, Bool.and_false, Bool.and_false]
      exact htext.symm
    · have hc : isIdentifierChar c = false := Bool.eq_false_iff.2 hc
      rw [text_cons r hc]
      dsimp only
      rw [getLast?_text_beq r hc]
      split
      · rename_i hlast
        rw [Bool.and_eq_true, beq_iff_eq] at hlast
        exact dropLast_text hc hlast.1
      · exact (text_cons r hc rest).symm

theorem map_nonempty?_congr (h : r.string s = r.string t) :
    (nonempty? s).map r.string = (nonempty? t).map r.string := by
  have hempty : s.isEmpty = t.isEmpty := by rw [← r.isEmpty_string, h, isEmpty_string]
  rw [nonempty?, nonempty?, hempty]
  split
  · rfl
  · exact congrArg some h

theorem string_append_congr (h : r.string s = r.string t) {post : String}
    (hpost : ∀ c ∈ post.toList, isIdentifierChar c = false) :
    r.string (s ++ post) = r.string (t ++ post) := by
  rw [← String.toList_inj, toList_string, toList_string] at h ⊢
  rw [String.toList_append, String.toList_append, text_append_of_forall r hpost,
    text_append_of_forall r hpost, h]

/-! ## 2. What is left of a tree -/

/-- The kinds of nodes that statements stand in. -/
def blockKinds : List String :=
  ["program", "ambient_declaration", "statement_block", "module", "block", "class_definition",
    "function_definition", "decorated_definition", "if_statement", "elif_clause", "else_clause",
    "for_statement", "while_statement", "try_statement", "except_clause", "except_group_clause",
    "finally_clause", "with_statement", "match_statement", "case_clause"]

/-- The fields in which such nodes stand. -/
def blockFields : List String :=
  ["body", "consequence", "alternative", "definition"]

/-- The kinds of import statements. -/
def importKinds : List String :=
  ["import_statement", "import_from_statement"]

/-- Whether statements stand in a node. -/
def isBlock (l : Label) : Bool :=
  blockKinds.contains l.kind && l.field.all blockFields.contains

/-- Whether a node is an import statement, and nothing is assigned in it. -/
def isImport (l : Label) (children : List Node) : Bool :=
  importKinds.contains l.kind && l.field.isNone &&
    (descendantsOf (fun _ => false) children).all (·.kind != "assignment")

/-- Whether a node is the name of what is called. -/
def isCallee (l : Label) : Bool :=
  l.field == some "function" && (l.kind == "identifier" || l.kind == "attribute")

variable (r) in
/-- What is left of the label of a node with a text. -/
def label (text : String) (l : Label) : Label :=
  { l with id := 0, start := 0, stop := 0, line := 0
           text := if isCallee l then text else r.string text }

variable (r)

mutual

/-- **What is left of a tree** if the old name is not told from the new one. Outside of everything but
blocks nothing is left of import statements and of the texts that hold them. -/
def tree (outside : Bool) : Node → Node
  | .node l children =>
    let isStatement := outside && isImport l children
    .node (r.label (if isStatement || outside && isBlock l then "" else l.text) l)
      (if isStatement then [] else treesOf (outside && isBlock l) children)

/-- What is left of some trees. -/
def treesOf (outside : Bool) : List Node → List Node
  | [] => []
  | n :: ns => tree outside n :: treesOf outside ns

end

/-! ## 3. Labels -/

variable {o : Bool} {n : Node}

theorem treesOf_eq_map (ns : List Node) : r.treesOf o ns = ns.map (r.tree o) := by
  induction ns with
  | nil => rfl
  | cons n ns ih => rw [treesOf, ih, List.map_cons]

/-- Whether nothing is left of the inside of a node. -/
def isDropped (o : Bool) (n : Node) : Bool :=
  o && isImport n.label n.children

/-- Whether the children of a node stand outside of everything but blocks. -/
def isOutside (o : Bool) (n : Node) : Bool :=
  o && isBlock n.label

theorem label_tree (n : Node) :
    (r.tree o n).label
      = r.label (if isDropped o n || isOutside o n then "" else n.text) n.label := by
  cases n
  rfl

@[simp] theorem kind_tree (n : Node) : (r.tree o n).kind = n.kind :=
  (congrArg Label.kind (r.label_tree n)).trans rfl

@[simp] theorem field_tree (n : Node) : (r.tree o n).label.field = n.label.field :=
  (congrArg Label.field (r.label_tree n)).trans rfl

@[simp] theorem isNamed_tree (n : Node) : (r.tree o n).label.isNamed = n.label.isNamed :=
  (congrArg Label.isNamed (r.label_tree n)).trans rfl

theorem text_tree (hdropped : isDropped o n = false) (houtside : isOutside o n = false) :
    (r.tree o n).text = if isCallee n.label then n.text else r.string n.text := by
  have htext := congrArg Label.text (r.label_tree (o := o) n)
  rw [hdropped, houtside] at htext
  exact htext

/-- **A text is the same under the new name.** -/
theorem string_text_tree (hdropped : isDropped o n = false) (houtside : isOutside o n = false) :
    r.string (r.tree o n).text = r.string n.text := by
  rw [text_tree r hdropped houtside]
  split
  · rfl
  · exact string_string n.text

theorem children_tree (h : isDropped o n = false) :
    (r.tree o n).children = n.children.map (r.tree (isOutside o n)) := by
  cases n with
  | node l children =>
    have hkept : (o && isImport l children) = false := h
    rw [tree, ← treesOf_eq_map]
    exact if_neg (ne_true_of_eq_false hkept)

/-- Nothing is left of where a node is, and of its number. -/
theorem label_congr (text : String) {l m : Label}
    (h : (l.kind, l.field, l.isNamed) = (m.kind, m.field, m.isNamed) ∧
      (l.isError, l.isMissing, l.hasError) = (m.isError, m.isMissing, m.hasError)) :
    r.label text l = r.label text m := by
  obtain ⟨_, kind, field, isNamed, isError, isMissing, hasError, _, _, _, _⟩ := l
  obtain ⟨hrule, hfaults⟩ := h
  cases hrule
  cases hfaults
  rfl

/-- Of an import statement its label is left, and nothing inside. -/
theorem tree_of_isDropped (h : isDropped o n = true) :
    r.tree o n = .node (r.label "" n.label) [] := by
  cases n with
  | node l children =>
    have hdropped : (o && isImport l children) = true := h
    rw [tree, hdropped, Bool.true_or, if_pos rfl, if_pos rfl]
    rfl

/-- A block loses its text, and its children are looked at one by one. -/
theorem tree_of_isOutside (hdropped : isDropped o n = false) (h : isOutside o n = true) :
    r.tree o n = .node (r.label "" n.label) (n.children.map (r.tree true)) := by
  cases n with
  | node l children =>
    have hkept : (o && isImport l children) = false := hdropped
    have houtside : (o && isBlock l) = true := h
    rw [tree, hkept, houtside, Bool.false_or, if_pos rfl, treesOf_eq_map]
    rfl

/-! Where nothing is outside, everything is kept. -/

theorem isDropped_of_kind (h : n.kind ∉ importKinds) : isDropped o n = false := by
  have hkind : importKinds.contains n.label.kind = false := by
    rwa [← Bool.not_eq_true, List.contains_iff_mem]
  rw [isDropped, isImport, hkind, Bool.false_and, Bool.false_and, Bool.and_false]

theorem isDropped_of_field {name : String} (h : n.label.field = some name) :
    isDropped o n = false := by
  rw [isDropped, isImport, h, Option.isNone_some, Bool.and_false, Bool.false_and, Bool.and_false]

theorem isOutside_of_kind (h : n.kind ∉ blockKinds) : isOutside o n = false := by
  have hkind : blockKinds.contains n.label.kind = false := by
    rwa [← Bool.not_eq_true, List.contains_iff_mem]
  rw [isOutside, isBlock, hkind, Bool.false_and, Bool.and_false]

theorem isOutside_of_field {name : String} (h : n.label.field = some name)
    (hname : name ∉ blockFields) : isOutside o n = false := by
  have hfield : blockFields.contains name = false := by
    rwa [← Bool.not_eq_true, List.contains_iff_mem]
  rw [isOutside, isBlock, h, Option.all_some, hfield, Bool.and_false, Bool.and_false]

/-- What is neither a block nor an import is the same outside and inside. -/
theorem tree_eq_inside (hdropped : isDropped o n = false) (houtside : isOutside o n = false) :
    r.tree o n = r.tree false n := by
  cases n with
  | node l children =>
    have hkept : (o && isImport l children) = false := hdropped
    have hinside : (o && isBlock l) = false := houtside
    rw [tree, tree, hkept, hinside, Bool.false_and, Bool.false_and]

theorem tree_eq_inside_of_kind (himport : n.kind ∉ importKinds) (hblock : n.kind ∉ blockKinds) :
    r.tree o n = r.tree false n :=
  tree_eq_inside r (isDropped_of_kind himport) (isOutside_of_kind hblock)

/-! ## 4. Children -/

section Children

variable (h : isDropped o n = false)

include h

/-- Children are picked by their labels, but for texts and places. -/
theorem filter_children_tree {p : Node → Bool} (hp : ∀ o c, p (r.tree o c) = p c) :
    (r.tree o n).children.filter p = (n.children.filter p).map (r.tree (isOutside o n)) := by
  rw [children_tree r h, List.filter_map, show p ∘ r.tree (isOutside o n) = p from
    funext fun c => hp _ c]

theorem find?_children_tree {p : Node → Bool} (hp : ∀ o c, p (r.tree o c) = p c) :
    (r.tree o n).children.find? p = (n.children.find? p).map (r.tree (isOutside o n)) := by
  rw [← List.head?_filter, filter_children_tree r h hp, List.head?_map, List.head?_filter]

theorem named_tree : (r.tree o n).named = n.named.map (r.tree (isOutside o n)) :=
  filter_children_tree r h fun _ c => r.isNamed_tree c

theorem field?_tree (name : String) :
    (r.tree o n).field? name = (n.field? name).map (r.tree (isOutside o n)) :=
  find?_children_tree r h fun _ c => by rw [field_tree]

/-- The child in a field that holds no block. -/
theorem field?_tree_of_notMem {name : String} (hname : name ∉ blockFields) :
    (r.tree o n).field? name = (n.field? name).map (r.tree false) := by
  rw [field?_tree r h]
  cases hc : n.field? name with
  | none => rfl
  | some c =>
    have hfield : c.label.field = some name := by simpa using List.find?_some hc
    rw [Option.map_some, Option.map_some,
      tree_eq_inside r (isDropped_of_field hfield) (isOutside_of_field hfield hname)]

theorem child?_tree (kinds : List String) :
    (r.tree o n).child? kinds = (n.child? kinds).map (r.tree (isOutside o n)) :=
  find?_children_tree r h fun _ c => by rw [kind_tree]

theorem hasToken_tree (token : String) : (r.tree o n).hasToken token = n.hasToken token := by
  rw [Node.hasToken, children_tree r h, List.any_map, Node.hasToken]
  refine congrArg (List.any n.children) (funext fun c => ?_)
  rw [Function.comp_apply, kind_tree]

/-- The text of such a child. -/
theorem string_fieldText_tree {name : String} (hname : name ∉ blockFields) :
    r.string ((r.tree o n).fieldText name) = r.string (n.fieldText name) := by
  rw [Node.fieldText, field?_tree_of_notMem r h hname, Node.fieldText]
  cases n.field? name with
  | none => rfl
  | some c => exact string_text_tree r rfl rfl

end Children

/-! Inside of a statement everything is kept. -/

section Inside

theorem string_text_inside (n : Node) : r.string (r.tree false n).text = r.string n.text :=
  string_text_tree r rfl rfl

theorem string_textOf_inside (n : Option Node) :
    r.string (Node.textOf (n.map (r.tree false))) = r.string (Node.textOf n) := by
  cases n with
  | none => rfl
  | some n => exact r.string_text_inside n

theorem named_inside (n : Node) : (r.tree false n).named = n.named.map (r.tree false) :=
  named_tree r rfl

theorem field?_inside (n : Node) (name : String) :
    (r.tree false n).field? name = (n.field? name).map (r.tree false) :=
  field?_tree r rfl name

theorem firstField?_inside (n : Node) (names : List String) :
    (r.tree false n).firstField? names = (n.firstField? names).map (r.tree false) := by
  rw [Node.firstField?, Node.firstField?, List.map_findSome?]
  exact congrArg (fun f => List.findSome? f names) (funext (r.field?_inside n))

theorem child?_inside (n : Node) (kinds : List String) :
    (r.tree false n).child? kinds = (n.child? kinds).map (r.tree false) :=
  child?_tree r rfl kinds

theorem hasToken_inside (n : Node) (token : String) :
    (r.tree false n).hasToken token = n.hasToken token :=
  hasToken_tree r rfl token

theorem string_fieldText_inside (n : Node) (name : String) :
    r.string ((r.tree false n).fieldText name) = r.string (n.fieldText name) := by
  rw [Node.fieldText, field?_inside, string_textOf_inside, Node.fieldText]

end Inside

/-! ## 5. Lists of nodes -/

section Lists

variable {α β γ : Type}

/-- What is read from some nodes is the same, as far as it is looked at. -/
theorem map_filterMap_tree {f : Node → Option α} {g : α → β} {ns : List Node}
    (h : ∀ n ∈ ns, (f (r.tree o n)).map g = (f n).map g) :
    ((ns.map (r.tree o)).filterMap f).map g = (ns.filterMap f).map g := by
  rw [List.filterMap_map, List.map_filterMap, List.map_filterMap]
  exact List.filterMap_congr h

/-- What looks the same is there twice or not at all. -/
theorem none_or_some_of_map_eq {a b : Option α} {g : α → β} (h : a.map g = b.map g) :
    (a = none ∧ b = none) ∨ ∃ x y, a = some x ∧ b = some y ∧ g x = g y := by
  cases a with
  | none =>
    cases b with
    | none => exact Or.inl ⟨rfl, rfl⟩
    | some y => cases h
  | some x =>
    cases b with
    | none => cases h
    | some y => exact Or.inr ⟨x, y, rfl, rfl, Option.some.inj h⟩

/-- What is read next is the same, as far as it is looked at, if what is read first is. -/
theorem map_bind_congr {a b : Option α} {f : α → Option α} {g : α → β} (hab : a.map g = b.map g)
    (h : ∀ x y, g x = g y → (f x).map g = (f y).map g) : (a.bind f).map g = (b.bind f).map g := by
  rcases none_or_some_of_map_eq hab with ⟨rfl, rfl⟩ | ⟨x, y, rfl, rfl, hxy⟩
  · rfl
  · exact h x y hxy

/-- What is gathered from some nodes is the same, as far as it is looked at. -/
theorem foldl_tree {f f' : β → Node → β} {g : β → γ} {ns : List Node}
    (h : ∀ n ∈ ns, ∀ b b', g b' = g b → g (f' b' (r.tree o n)) = g (f b n)) {b b' : β}
    (hb : g b' = g b) : g ((ns.map (r.tree o)).foldl f' b') = g (ns.foldl f b) := by
  induction ns generalizing b b' with
  | nil => exact hb
  | cons n ns ih =>
    rw [List.map_cons, List.foldl_cons, List.foldl_cons]
    exact ih (fun m hm => h m (List.mem_cons_of_mem n hm)) (h n List.mem_cons_self b b' hb)

end Lists

/-! ## 6. Assignments below -/

mutual

/-- Fewer stops, more descendants. -/
theorem mem_descendants_of_stop {stop : Node → Bool} {m : Node} :
    ∀ {n : Node}, m ∈ n.descendants stop → m ∈ n.descendants fun _ => false
  | .node _ children, h => mem_descendantsOf_of_stop (show m ∈ descendantsOf stop children from h)

theorem mem_descendantsOf_of_stop {stop : Node → Bool} {m : Node} :
    ∀ {ns : List Node}, m ∈ descendantsOf stop ns → m ∈ descendantsOf (fun _ => false) ns
  | [], h => h
  | n :: ns, h => by
    rw [descendantsOf, List.mem_cons, List.mem_append] at h
    rw [descendantsOf, List.mem_cons, List.mem_append, if_neg Bool.false_ne_true]
    rcases h with rfl | h | h
    · exact Or.inl rfl
    · split at h
      · exact absurd h List.not_mem_nil
      · exact Or.inr (Or.inl (mem_descendants_of_stop h))
    · exact Or.inr (Or.inr (mem_descendantsOf_of_stop h))

end

/-- Nothing is assigned in an import statement. -/
theorem filter_descendantsOf_of_isImport {l : Label} {children : List Node}
    (h : isImport l children = true) (stop : Node → Bool) :
    (descendantsOf stop children).filter (·.kind == "assignment") = [] := by
  rw [isImport, Bool.and_eq_true, List.all_eq_true] at h
  rw [List.filter_eq_nil_iff]
  intro n hn
  have hno := h.2 n (mem_descendantsOf_of_stop hn)
  rwa [bne, Bool.not_eq_true', ← Bool.not_eq_true] at hno

mutual

/-- **The assignments below a node** are found again, whatever is not entered. -/
theorem filter_descendants_tree {stop : Node → Bool} (hstop : ∀ o n, stop (r.tree o n) = stop n) :
    ∀ (o : Bool) (n : Node), ((r.tree o n).descendants stop).filter (·.kind == "assignment")
      = ((n.descendants stop).filter (·.kind == "assignment")).map (r.tree false)
  | o, .node l children => by
    rw [tree, Node.descendants, Node.descendants]
    by_cases hstatement : (o && isImport l children) = true
    · rw [if_pos hstatement,
        filter_descendantsOf_of_isImport (Bool.and_eq_true_iff.1 hstatement).2 stop]
      rfl
    · rw [if_neg hstatement]
      exact filter_descendantsOf_treesOf hstop _ children

theorem filter_descendantsOf_treesOf {stop : Node → Bool}
    (hstop : ∀ o n, stop (r.tree o n) = stop n) :
    ∀ (o : Bool) (ns : List Node),
      (descendantsOf stop (r.treesOf o ns)).filter (·.kind == "assignment")
        = ((descendantsOf stop ns).filter (·.kind == "assignment")).map (r.tree false)
  | _, [] => rfl
  | o, n :: ns => by
    have hbelow : (if stop n then [] else (r.tree o n).descendants stop).filter
          (·.kind == "assignment")
        = ((if stop n then [] else n.descendants stop).filter (·.kind == "assignment")).map
          (r.tree false) := by
      split
      · rfl
      · exact filter_descendants_tree hstop o n
    rw [treesOf, descendantsOf, descendantsOf, hstop, List.filter_cons, List.filter_cons,
      List.filter_append, List.filter_append, hbelow, filter_descendantsOf_treesOf hstop o ns,
      kind_tree, ← List.map_append]
    split
    · rename_i hkind
      rw [tree_eq_inside_of_kind r (by rw [eq_of_beq hkind]; decide) (by rw [eq_of_beq hkind]; decide),
        List.map_cons]
    · rfl

end

end Renaming

end CodeAtlas
