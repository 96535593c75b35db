import CodeAtlas.Proofs.Syntax.Capture
import CodeAtlas.Proofs.Syntax.Walk

/-!
# Trees without their comments

`Node.withoutComments` leaves the comments of a tree out of all lists of children and everything
else as it is. Readers that look for children by field, by kind or by keyword find the same
children, without the comments below them (`Node.field?_withoutComments` and its neighbours). A
reader that goes through all children is not disturbed either if it passes over comments
(`filterMap_withoutCommentsOf`, `foldl_withoutCommentsOf`). The walks through whole trees keep to
this too, and so do captures (`Node.captures_withoutComments`).
-/

namespace CodeAtlas.Syntax

/-! ## 1. Comments -/

/-- The kinds of comments in the grammars. -/
def commentKinds : List String :=
  ["comment", "line_comment", "block_comment", "html_comment"]

namespace Node

/-- Whether a node is a comment. The grammars allow comments between any two tokens: named leaves
that fill no field. -/
def isComment (n : Node) : Bool :=
  commentKinds.contains n.kind && n.label.isNamed && n.label.field.isNone && n.children.isEmpty

mutual

/-- The tree without its comments. -/
def withoutComments : Node → Node
  | node label children => node label (withoutCommentsOf children)

/-- The trees of a list that are no comments, without their comments. -/
def withoutCommentsOf : List Node → List Node
  | [] => []
  | n :: ns =>
    if n.isComment then withoutCommentsOf ns
    else n.withoutComments :: withoutCommentsOf ns

end

mutual

/-- Whether a condition holds of a node and of everything below it. -/
def everywhere (p : Node → Bool) : Node → Bool
  | node label children => p (node label children) && everywhereIn p children

/-- Whether a condition holds of the trees of a list and of everything below them. -/
def everywhereIn (p : Node → Bool) : List Node → Bool
  | [] => true
  | n :: ns => n.everywhere p && everywhereIn p ns

end

variable {n c : Node} {p : Node → Bool}

/-! ## 2. Conditions on all nodes -/

theorem everywhereIn_eq (p : Node → Bool) (ns : List Node) :
    everywhereIn p ns = ns.all (·.everywhere p) := by
  induction ns with
  | nil => rfl
  | cons n ns ih => rw [everywhereIn, ih, List.all_cons]

theorem everywhere_iff :
    n.everywhere p = true ↔ p n = true ∧ ∀ c ∈ n.children, c.everywhere p = true := by
  cases n with
  | node label children =>
    rw [everywhere, everywhereIn_eq, Bool.and_eq_true, List.all_eq_true]
    rfl

theorem holds_of_everywhere (h : n.everywhere p = true) : p n = true :=
  (everywhere_iff.1 h).1

theorem everywhere_of_mem (h : n.everywhere p = true) (hc : c ∈ n.children) :
    c.everywhere p = true :=
  (everywhere_iff.1 h).2 c hc

theorem everywhere_of_named (h : n.everywhere p = true) (hc : c ∈ n.named) :
    c.everywhere p = true :=
  everywhere_of_mem h (mem_children_of_mem_named hc)

theorem everywhere_of_field? {name : String} (h : n.everywhere p = true)
    (hc : n.field? name = some c) : c.everywhere p = true :=
  everywhere_of_mem h (mem_children_of_field? hc)

theorem everywhere_of_child? {kinds : List String} (h : n.everywhere p = true)
    (hc : n.child? kinds = some c) : c.everywhere p = true :=
  everywhere_of_mem h (mem_children_of_child? hc)

mutual

theorem everywhere_of_mem_sitesBelow {site : Site} :
    ∀ {n : Node} {above : List Node}, n.everywhere p = true → site ∈ n.sitesBelow above →
      site.node.everywhere p = true
  | node label children, above, h, hsite => by
    rw [sitesBelow, List.mem_cons] at hsite
    rcases hsite with rfl | hsite
    · exact h
    · exact everywhere_of_mem_sitesOf (fun c hc => everywhere_of_mem h hc) hsite

theorem everywhere_of_mem_sitesOf {site : Site} :
    ∀ {ns above : List Node}, (∀ n ∈ ns, n.everywhere p = true) → site ∈ sitesOf above ns →
      site.node.everywhere p = true
  | [], above, _, hsite => absurd hsite List.not_mem_nil
  | n :: ns, above, h, hsite => by
    rw [sitesOf, List.mem_append] at hsite
    rcases hsite with hsite | hsite
    · exact everywhere_of_mem_sitesBelow (h n List.mem_cons_self) hsite
    · exact everywhere_of_mem_sitesOf (fun d hd => h d (List.mem_cons_of_mem n hd)) hsite

end

/-- The condition holds at every site of the tree. -/
theorem everywhere_of_mem_sites {site : Site} (h : n.everywhere p = true) (hsite : site ∈ n.sites) :
    site.node.everywhere p = true :=
  everywhere_of_mem_sitesBelow h hsite

mutual

/-- The condition holds of the descendants. -/
theorem everywhere_of_mem_descendants {stop : Node → Bool} {m : Node} :
    ∀ {n : Node}, n.everywhere p = true → m ∈ n.descendants stop → m.everywhere p = true
  | node _ children, h, hm =>
    everywhere_of_mem_descendantsOf (fun _ hc => everywhere_of_mem (n := node _ children) h hc) hm

theorem everywhere_of_mem_descendantsOf {stop : Node → Bool} {m : Node} :
    ∀ {ns : List Node}, (∀ n ∈ ns, n.everywhere p = true) → m ∈ descendantsOf stop ns →
      m.everywhere p = true
  | [], _, hm => absurd hm List.not_mem_nil
  | n :: ns, h, hm => by
    rw [descendantsOf, List.mem_cons, List.mem_append] at hm
    rcases hm with rfl | hm | hm
    · exact h m List.mem_cons_self
    · split at hm
      · exact absurd hm List.not_mem_nil
      · exact everywhere_of_mem_descendants (h n List.mem_cons_self) hm
    · exact everywhere_of_mem_descendantsOf (fun d hd => h d (List.mem_cons_of_mem n hd)) hm

end

/-! ## 3. What a comment is -/

theorem isComment_iff : n.isComment = true ↔
    n.kind ∈ commentKinds ∧ n.label.isNamed = true ∧ n.label.field = none ∧ n.children = [] := by
  rw [isComment, Bool.and_eq_true, Bool.and_eq_true, Bool.and_eq_true, List.contains_iff_mem,
    Option.isNone_iff_eq_none, List.isEmpty_iff, and_assoc, and_assoc]

theorem kind_beq_of_isComment (h : n.isComment = true) {kind : String}
    (hkind : kind ∉ commentKinds) : (n.kind == kind) = false := by
  rw [beq_eq_false_iff_ne]
  rintro rfl
  exact hkind (isComment_iff.1 h).1

theorem field_beq_of_isComment (h : n.isComment = true) (name : String) :
    (n.label.field == some name) = false := by
  rw [(isComment_iff.1 h).2.2.1]
  rfl

/-- A comment is of none of some kinds that are kinds of other nodes. -/
theorem contains_kind_of_isComment (h : n.isComment = true) {kinds : List String}
    (hkinds : ∀ kind ∈ kinds, kind ∉ commentKinds) : kinds.contains n.kind = false := by
  rw [← Bool.not_eq_true, List.contains_iff_mem]
  exact fun hmem => hkinds _ hmem (isComment_iff.1 h).1

/-- Comments hold nothing that could be left out. -/
theorem withoutComments_of_isComment (h : n.isComment = true) : n.withoutComments = n := by
  cases n with
  | node label children =>
    obtain rfl : children = [] := (isComment_iff.1 h).2.2.2
    rfl

/-! ## 4. Single nodes -/

@[simp] theorem label_withoutComments (n : Node) : n.withoutComments.label = n.label := by
  cases n
  rfl

@[simp] theorem kind_withoutComments (n : Node) : n.withoutComments.kind = n.kind :=
  congrArg Label.kind n.label_withoutComments

@[simp] theorem text_withoutComments (n : Node) : n.withoutComments.text = n.text :=
  congrArg Label.text n.label_withoutComments

@[simp] theorem line_withoutComments (n : Node) : n.withoutComments.line = n.line :=
  congrArg Label.line n.label_withoutComments

@[simp] theorem start_withoutComments (n : Node) : n.withoutComments.start = n.start :=
  congrArg Label.start n.label_withoutComments

@[simp] theorem stop_withoutComments (n : Node) : n.withoutComments.stop = n.stop :=
  congrArg Label.stop n.label_withoutComments

@[simp] theorem textOf_withoutComments (n : Option Node) :
    textOf (n.map withoutComments) = textOf n := by
  cases n with
  | none => rfl
  | some n => exact n.text_withoutComments

theorem children_withoutComments (n : Node) :
    n.withoutComments.children = withoutCommentsOf n.children := by
  cases n
  rfl

end Node

/-! ## 5. Lists of nodes -/

section Lists

open Node

variable {α β : Type} {ns : List Node}

theorem withoutCommentsOf_cons_of_isComment {n : Node} (h : n.isComment = true) :
    withoutCommentsOf (n :: ns) = withoutCommentsOf ns := by
  rw [withoutCommentsOf, if_pos h]

theorem withoutCommentsOf_cons_of_not {n : Node} (h : ¬ n.isComment = true) :
    withoutCommentsOf (n :: ns) = n.withoutComments :: withoutCommentsOf ns := by
  rw [withoutCommentsOf, if_neg h]

/-- The nodes that are no comments, without their comments. -/
theorem withoutCommentsOf_eq (ns : List Node) :
    withoutCommentsOf ns = (ns.filter fun n => !n.isComment).map withoutComments := by
  induction ns with
  | nil => rfl
  | cons n ns ih =>
    by_cases hn : n.isComment = true
    · rw [withoutCommentsOf_cons_of_isComment hn, ih, List.filter_cons_of_neg]
      rw [hn]
      exact Bool.false_ne_true
    · rw [withoutCommentsOf_cons_of_not hn, ih, List.filter_cons_of_pos, List.map_cons]
      rw [Bool.eq_false_iff.2 hn]
      rfl

theorem withoutCommentsOf_append (ns ms : List Node) :
    withoutCommentsOf (ns ++ ms) = withoutCommentsOf ns ++ withoutCommentsOf ms := by
  rw [withoutCommentsOf_eq, List.filter_append, List.map_append, withoutCommentsOf_eq,
    withoutCommentsOf_eq]

theorem withoutCommentsOf_eq_map (h : ∀ n ∈ ns, n.isComment = false) :
    withoutCommentsOf ns = ns.map withoutComments := by
  rw [withoutCommentsOf_eq, List.filter_eq_self.2]
  intro n hn
  rw [h n hn]
  rfl

/-- Nodes can be picked by their labels before or after the comments are left out. -/
theorem filter_withoutCommentsOf (p : Label → Bool) (ns : List Node) :
    (withoutCommentsOf ns).filter (fun n => p n.label)
      = withoutCommentsOf (ns.filter fun n => p n.label) := by
  rw [withoutCommentsOf_eq, withoutCommentsOf_eq, List.filter_map, List.filter_filter,
    List.filter_filter]
  refine congrArg (List.map withoutComments) (List.filter_congr fun n _ => ?_)
  rw [Function.comp_apply, label_withoutComments, Bool.and_comm]

/-- **What is picked by a condition that no comment satisfies is not disturbed.** -/
theorem filter_withoutCommentsOf_of {p : Label → Bool}
    (hp : ∀ n : Node, n.isComment = true → p n.label = false) (ns : List Node) :
    (withoutCommentsOf ns).filter (fun n => p n.label)
      = (ns.filter fun n => p n.label).map withoutComments := by
  rw [filter_withoutCommentsOf, withoutCommentsOf_eq_map]
  intro n hn
  have hlabel := (List.mem_filter.1 hn).2
  rw [← Bool.not_eq_true]
  intro hcomment
  rw [hp n hcomment] at hlabel
  cases hlabel

theorem find?_withoutCommentsOf {p : Label → Bool}
    (hp : ∀ n : Node, n.isComment = true → p n.label = false) (ns : List Node) :
    (withoutCommentsOf ns).find? (fun n => p n.label)
      = (ns.find? fun n => p n.label).map withoutComments := by
  rw [← List.head?_filter, filter_withoutCommentsOf_of hp, List.head?_map, List.head?_filter]

/-- **A reader of every node that reads nothing from comments** reads the same without them. -/
theorem filterMap_withoutCommentsOf {f : Node → Option α}
    (hcomment : ∀ n, n.isComment = true → f n = none)
    (h : ∀ n ∈ ns, f n.withoutComments = f n) :
    (withoutCommentsOf ns).filterMap f = ns.filterMap f := by
  rw [withoutCommentsOf_eq, List.filterMap_map, List.filterMap_filter]
  refine List.filterMap_congr fun n hn => ?_
  cases hc : n.isComment with
  | true => exact (hcomment n hc).symm
  | false => exact h n hn

theorem flatMap_withoutCommentsOf {f : Node → List α}
    (hcomment : ∀ n, n.isComment = true → f n = [])
    (h : ∀ n ∈ ns, f n.withoutComments = f n) :
    (withoutCommentsOf ns).flatMap f = ns.flatMap f := by
  induction ns with
  | nil => rfl
  | cons n ns ih =>
    have hrest := ih fun m hm => h m (List.mem_cons_of_mem n hm)
    by_cases hn : n.isComment = true
    · rw [withoutCommentsOf_cons_of_isComment hn, List.flatMap_cons, hcomment n hn, hrest,
        List.nil_append]
    · rw [withoutCommentsOf_cons_of_not hn, List.flatMap_cons, List.flatMap_cons,
        h n List.mem_cons_self, hrest]

theorem foldl_withoutCommentsOf {f : β → Node → β}
    (hcomment : ∀ b n, n.isComment = true → f b n = b)
    (h : ∀ b, ∀ n ∈ ns, f b n.withoutComments = f b n) (b : β) :
    (withoutCommentsOf ns).foldl f b = ns.foldl f b := by
  rw [withoutCommentsOf_eq, List.foldl_map, List.foldl_filter]
  refine List.foldl_ext _ _ b fun b n hn => ?_
  cases hc : n.isComment with
  | true => exact (hcomment b n hc).symm
  | false => exact h b n hn

theorem head?_withoutCommentsOf (ns : List Node) :
    (withoutCommentsOf ns).head? = (ns.find? fun n => !n.isComment).map withoutComments := by
  rw [withoutCommentsOf_eq, List.head?_map, List.head?_filter]

/-- The first node that is no comment, where no comment is in front. -/
theorem find?_not_isComment (h : ns.head?.any isComment = false) :
    (ns.find? fun n => !n.isComment) = ns.head? := by
  cases ns with
  | nil => rfl
  | cons n ns =>
    rw [List.head?_cons, Option.any_some] at h
    exact List.find?_cons_of_pos (by rw [h]; rfl)

theorem getLast?_withoutCommentsOf (h : ns.getLast?.any isComment = false) :
    (withoutCommentsOf ns).getLast? = ns.getLast?.map withoutComments := by
  rcases List.eq_nil_or_concat ns with rfl | ⟨init, last, rfl⟩
  · rfl
  · rw [List.concat_eq_append, List.getLast?_concat, Option.any_some] at h
    have hlast : withoutCommentsOf [last] = [last.withoutComments] :=
      withoutCommentsOf_cons_of_not (Bool.eq_false_iff.1 h)
    rw [List.concat_eq_append, withoutCommentsOf_append, hlast, List.getLast?_concat,
      List.getLast?_concat]
    rfl

end Lists

namespace Node

/-! ## 6. Children -/

theorem named_withoutComments (n : Node) :
    n.withoutComments.named = withoutCommentsOf n.named := by
  rw [named, children_withoutComments]
  exact filter_withoutCommentsOf (fun l => l.isNamed) n.children

@[simp] theorem field?_withoutComments (n : Node) (name : String) :
    n.withoutComments.field? name = (n.field? name).map withoutComments := by
  rw [field?, children_withoutComments]
  exact find?_withoutCommentsOf (p := fun l => l.field == some name)
    (fun _ h => field_beq_of_isComment h name) n.children

@[simp] theorem fields_withoutComments (n : Node) (name : String) :
    n.withoutComments.fields name = (n.fields name).map withoutComments := by
  rw [fields, children_withoutComments]
  exact filter_withoutCommentsOf_of (p := fun l => l.field == some name)
    (fun _ h => field_beq_of_isComment h name) n.children

@[simp] theorem firstField?_withoutComments (n : Node) (names : List String) :
    n.withoutComments.firstField? names = (n.firstField? names).map withoutComments := by
  induction names with
  | nil => rfl
  | cons name names ih =>
    rw [firstField?, firstField?, List.findSome?_cons, List.findSome?_cons, field?_withoutComments]
    cases n.field? name with
    | none => exact ih
    | some c => rfl

@[simp] theorem fieldText_withoutComments (n : Node) (name : String) :
    n.withoutComments.fieldText name = n.fieldText name := by
  rw [fieldText, field?_withoutComments, textOf_withoutComments, fieldText]

theorem child?_withoutComments (n : Node) {kinds : List String}
    (h : ∀ kind ∈ kinds, kind ∉ commentKinds) :
    n.withoutComments.child? kinds = (n.child? kinds).map withoutComments := by
  rw [child?, children_withoutComments]
  exact find?_withoutCommentsOf (p := fun l => kinds.contains l.kind)
    (fun _ hc => contains_kind_of_isComment hc h) n.children

theorem childrenOf_withoutComments (n : Node) {kind : String} (h : kind ∉ commentKinds) :
    n.withoutComments.childrenOf kind = (n.childrenOf kind).map withoutComments := by
  rw [childrenOf, children_withoutComments]
  exact filter_withoutCommentsOf_of (p := fun l => l.kind == kind)
    (fun _ hc => kind_beq_of_isComment hc h) n.children

theorem hasToken_withoutComments (n : Node) {token : String} (h : token ∉ commentKinds) :
    n.withoutComments.hasToken token = n.hasToken token := by
  have hfound := find?_withoutCommentsOf (p := fun l => l.kind == token)
    (fun _ hc => kind_beq_of_isComment hc h) n.children
  rw [hasToken, children_withoutComments, hasToken, ← List.isSome_find?, ← List.isSome_find?]
  exact (congrArg Option.isSome hfound).trans Option.isSome_map

/-! ## 7. Walks -/

mutual

theorem descendants_withoutComments (stop : Label → Bool) :
    ∀ n : Node, n.withoutComments.descendants (fun m => stop m.label)
      = withoutCommentsOf (n.descendants fun m => stop m.label)
  | node _ children => by
    rw [withoutComments, descendants, descendants]
    exact descendantsOf_withoutCommentsOf stop children

theorem descendantsOf_withoutCommentsOf (stop : Label → Bool) :
    ∀ ns : List Node, descendantsOf (fun m => stop m.label) (withoutCommentsOf ns)
      = withoutCommentsOf (descendantsOf (fun m => stop m.label) ns)
  | [] => rfl
  | n :: ns => by
    have hrest := descendantsOf_withoutCommentsOf stop ns
    rw [descendantsOf]
    by_cases hn : n.isComment = true
    -- there is nothing below a comment
    · have hnone : (if stop n.label then [] else n.descendants fun m => stop m.label) = [] := by
        cases n with
        | node label children =>
          obtain rfl : children = [] := (isComment_iff.1 hn).2.2.2
          rw [descendants, descendantsOf, ite_self]
      rw [withoutCommentsOf_cons_of_isComment hn, withoutCommentsOf_cons_of_isComment hn, hnone,
        List.nil_append, hrest]
    · rw [withoutCommentsOf_cons_of_not hn, withoutCommentsOf_cons_of_not hn, descendantsOf,
        withoutCommentsOf_append, hrest, label_withoutComments,
        descendants_withoutComments stop n]
      split
      · rfl
      · rfl

end

theorem isFault_withoutComments (n : Node) : n.withoutComments.isFault = n.isFault := by
  rw [isFault, label_withoutComments, isFault]

/-- Where a search finds no fault, it finds none in a part of the stack without its comments. The
induction is along the search with them: what is left out of a stack is left out of all that follow. -/
theorem faultStack?_withoutComments {stack : Array Node} (h : faultStack? stack = none)
    {kept : List Node} (hkept : kept.Sublist stack.toList) :
    faultStack? (kept.map withoutComments).toArray = none := by
  fun_induction faultStack? stack generalizing kept with
  | case1 stack hnone =>
    rw [Array.back?_eq_none_iff.1 hnone] at hkept
    rw [List.sublist_nil.1 hkept, List.map_nil, faultStack?_empty]
  | case2 => cases h
  | case3 stack current hcurrent hfault ih =>
    obtain ⟨rest, rfl⟩ := Array.back?_eq_some_iff.1 hcurrent
    rw [Array.pop_push, dite_eq_ite] at ih
    rw [Array.pop_push] at h
    rw [Array.toList_push] at hkept
    obtain ⟨front, last, rfl, hfront, hlast⟩ := List.sublist_append_iff.1 hkept
    rcases List.sublist_singleton.1 hlast with rfl | rfl
    · rw [List.append_nil]
      refine ih h ?_
      split
      · rw [Array.toList_appendList]
        exact hfront.trans (List.sublist_append_left _ _)
      · exact hfront
    · have hpush : ((front ++ [current]).map withoutComments).toArray
          = (front.map withoutComments).toArray.push current.withoutComments := by
        rw [List.map_append, List.map_singleton, List.push_toArray]
      rw [hpush, faultStack?_push, isFault_withoutComments, if_neg hfault, label_withoutComments]
      by_cases hmark : current.label.hasError = true
      · rw [if_pos hmark] at ih h ⊢
        have hchildren : (front.map withoutComments).toArray ++ current.withoutComments.children.reverse
            = ((front ++ (current.children.filter fun c => !c.isComment).reverse).map
              withoutComments).toArray := by
          rw [children_withoutComments, withoutCommentsOf_eq, List.map_append, List.map_reverse]
          simp
        rw [hchildren]
        refine ih h ?_
        rw [Array.toList_appendList]
        exact hfront.append List.filter_sublist.reverse
      · rw [if_neg hmark] at ih h ⊢
        exact ih h hfront

theorem firstFault?_withoutComments {n : Node} (h : n.firstFault? = none) :
    n.withoutComments.firstFault? = none := by
  have hkept : [n].Sublist #[n].toList := List.Sublist.refl [n]
  exact faultStack?_withoutComments h hkept

end Node

/-- The site without the comments below it and below the nodes above it. -/
def Site.withoutComments (site : Site) : Site :=
  ⟨site.node.withoutComments, site.above.map Node.withoutComments⟩

@[simp] theorem Site.node_withoutComments (site : Site) :
    site.withoutComments.node = site.node.withoutComments := rfl

section Sites

open Node

variable {α : Type} {g : Site → Option α}

mutual

theorem filterMap_sitesBelow_withoutComments
    (hcomment : ∀ site : Site, site.node.isComment = true → g site = none) :
    ∀ (above : List Node) (n : Node),
      (n.withoutComments.sitesBelow (above.map Node.withoutComments)).filterMap g
        = (n.sitesBelow above).filterMap fun site => g site.withoutComments
  | above, .node label children => by
    rw [Node.withoutComments, sitesBelow, sitesBelow, List.filterMap_cons, List.filterMap_cons]
    have hbelow := filterMap_sitesOf_withoutCommentsOf hcomment (.node label children :: above)
      children
    rw [List.map_cons, Node.withoutComments] at hbelow
    rw [hbelow]
    rfl

theorem filterMap_sitesOf_withoutCommentsOf
    (hcomment : ∀ site : Site, site.node.isComment = true → g site = none) :
    ∀ above ns : List Node,
      (sitesOf (above.map Node.withoutComments) (withoutCommentsOf ns)).filterMap g
        = (sitesOf above ns).filterMap fun site => g site.withoutComments
  | _, [] => rfl
  | above, n :: ns => by
    have hrest := filterMap_sitesOf_withoutCommentsOf hcomment above ns
    rw [sitesOf, List.filterMap_append]
    by_cases hn : n.isComment = true
    -- a comment is one site and none without comments
    · have hnone : (n.sitesBelow above).filterMap (fun site => g site.withoutComments) = [] := by
        have hg : g (Site.withoutComments ⟨n, above⟩) = none :=
          hcomment _ (by rw [Site.withoutComments, withoutComments_of_isComment hn]; exact hn)
        cases n with
        | node label children =>
          obtain rfl : children = [] := (isComment_iff.1 hn).2.2.2
          rw [sitesBelow, sitesOf]
          exact List.filterMap_cons_none hg
      rw [withoutCommentsOf_cons_of_isComment hn, hrest, hnone, List.nil_append]
    · rw [withoutCommentsOf_cons_of_not hn, sitesOf, List.filterMap_append, hrest,
        filterMap_sitesBelow_withoutComments hcomment above n]

end

end Sites

/-! ## 8. Captures -/

namespace Capture

variable {α : Type}

/-- The capture with the site without comments. -/
def withoutComments (c : Capture α) : Capture α :=
  ⟨c.tag, c.site.withoutComments⟩

@[simp] theorem node_withoutComments (c : Capture α) :
    c.withoutComments.node = c.node.withoutComments := rfl

theorem key_withoutComments (c : Capture α) : c.withoutComments.key = c.key := by
  rw [key, node_withoutComments, Node.start_withoutComments, Node.stop_withoutComments,
    Node.kind_withoutComments]
  rfl

theorem before_withoutComments (a b : Capture α) :
    a.withoutComments.before b.withoutComments = a.before b := by
  rw [before, node_withoutComments, node_withoutComments, Node.start_withoutComments,
    Node.start_withoutComments, Node.stop_withoutComments, Node.stop_withoutComments, before]

end Capture

namespace Node

variable {α : Type} [BEq α]

/-- **The captures of a tree without its comments** are those of the tree, if the query looks at
each site without comments. -/
theorem captures_withoutComments {query : Site → Option α} (root : Node)
    (hcomment : ∀ site : Site, site.node.isComment = true → query site = none) :
    root.withoutComments.captures query
      = (root.captures fun site => query site.withoutComments).map Capture.withoutComments := by
  have hfound : root.withoutComments.found query
      = (root.found fun site => query site.withoutComments).map Capture.withoutComments := by
    rw [found, found, List.map_filterMap]
    refine (filterMap_sitesBelow_withoutComments (fun site hsite => ?_) [] root).trans ?_
    · rw [hcomment site hsite]
      rfl
    · refine List.filterMap_congr fun site _ => ?_
      rw [Option.map_map]
      rfl
  -- keys say nothing of comments, so the same captures are left out as repetitions
  have hkey : (fun c : Capture α => c.withoutComments.key) = Capture.key :=
    funext Capture.key_withoutComments
  rw [captures_eq, captures_eq, hfound, Traversal.firstByKey_map, hkey]
  exact (List.map_mergeSort fun a _ b _ => (Capture.before_withoutComments a b).symm).symm

theorem byKind_withoutComments {α : Type} (table : List (α × List String)) (site : Site) :
    byKind table site.withoutComments = byKind table site := by
  rw [byKind, Site.withoutComments, label_withoutComments, kind_withoutComments, byKind]

theorem byKind_of_isComment {α : Type} {table : List (α × List String)}
    (h : ∀ row ∈ table, ∀ kind ∈ row.2, kind ∉ commentKinds) {site : Site}
    (hsite : site.node.isComment = true) : byKind table site = none := by
  rw [byKind]
  split
  · have hnone : table.find? (fun row => row.2.contains site.node.kind) = none := by
      rw [List.find?_eq_none]
      intro row hrow
      rw [contains_kind_of_isComment hsite (h row hrow)]
      exact Bool.false_ne_true
    rw [hnone]
    rfl
  · rfl

/-- **A query for kinds of nodes** that are no comments finds the same, without comments. -/
theorem captures_byKind_withoutComments {table : List (α × List String)} (root : Node)
    (h : ∀ row ∈ table, ∀ kind ∈ row.2, kind ∉ commentKinds) :
    root.withoutComments.captures (byKind table)
      = (root.captures (byKind table)).map Capture.withoutComments := by
  have hquery : (fun site : Site => byKind table site.withoutComments) = byKind table :=
    funext (byKind_withoutComments table)
  rw [captures_withoutComments root fun site hsite => byKind_of_isComment h hsite, hquery]

end Node

end CodeAtlas.Syntax
