import CodeAtlas.Proofs.Sequence.Nesting

/-!
# Scopes are what stands above

Scopes are told by spans, but what they mean is the tree: the scope around a piece of code is that of
the nearest class or callable above it, and it belongs to the nearest class above
(`Scope.exists_around`). This is so where the nodes that matter can be told apart by their spans, for
then a scope that holds a node is above it (`Scope.mem_above_of_encloses`).

A class without a name opens no scope. Code inside such a class is not looked at here.
-/

namespace CodeAtlas

open Syntax

/-! ## 1. Telling nodes apart -/

namespace Syntax.Node

variable {root : Node} {query : Site → Option CallTag}

/-- **The nodes that a query picks can be told apart by their spans**: the tree is laid out, and each of
them takes room and has a span of its own. -/
structure IsToldApart (root : Node) (query : Site → Option CallTag) : Prop where
  laidOut : root.IsLaidOut
  room : ∀ c ∈ root.found query, c.node.TakesRoom
  distinct : (root.found query).Pairwise fun a b =>
    ¬ (a.node.start = b.node.start ∧ a.node.stop = b.node.stop)

instance (root : Node) (query : Site → Option CallTag) : Decidable (root.IsToldApart query) :=
  decidable_of_iff (_ ∧ _ ∧ _)
    ⟨fun h => ⟨h.1, h.2.1, h.2.2⟩, fun h => ⟨h.laidOut, h.room, h.distinct⟩⟩

namespace IsToldApart

variable (h : root.IsToldApart query)
include h

/-- Then all of them are captured. -/
theorem perm_captures : (root.captures query).Perm (root.found query) := by
  have hkeys : ((root.found query).map Capture.key).Nodup := by
    rw [List.nodup_iff_pairwise_ne, List.pairwise_map]
    refine h.distinct.imp fun {a b} hne heq => hne ?_
    exact ⟨congrArg (·.2.1) heq, congrArg (·.2.2.1) heq⟩
  rw [captures_eq_mergeSort hkeys]
  exact List.mergeSort_perm _ _

theorem distinct_captures : (root.captures query).Pairwise fun a b =>
    ¬ (a.node.start = b.node.start ∧ a.node.stop = b.node.stop) :=
  h.perm_captures.symm.pairwise h.distinct fun hne ⟨hstart, hstop⟩ =>
    hne ⟨hstart.symm, hstop.symm⟩

theorem inOrder : Scope.InOrder [] ((root.captures query).filter Scope.opensScope) :=
  Scope.inOrder_captures h.laidOut (fun _ hc => (mem_found.1 hc).1)
    (fun c hc => h.room c (h.perm_captures.mem_iff.1 (List.mem_of_mem_filter hc)))
    (h.distinct_captures.sublist List.filter_sublist)

/-- One node that is picked twice is one capture. -/
theorem eq_of_span {a b : Capture CallTag} (ha : a ∈ root.captures query)
    (hb : b ∈ root.captures query) (hstart : a.node.start = b.node.start)
    (hstop : a.node.stop = b.node.stop) : a = b := by
  by_contra hne
  rcases rel_or_rel_of_pairwise h.distinct_captures ha hb hne with hab | hba
  · exact hab ⟨hstart, hstop⟩
  · exact hba ⟨hstart.symm, hstop.symm⟩

end IsToldApart

end Syntax.Node

namespace Scope

variable {frames outer : List Frame} {capture m k : Capture CallTag}
  {captures : List (Capture CallTag)} {f : Frame} {name : String}

/-! ## 2. What a capture opens -/

/-- A callable opens a scope. -/
theorem isSome_frame?_of_callable (h : capture.tag = .callableScope) :
    (frame? outer capture).isSome = true := by
  unfold frame?
  rw [h]
  dsimp only
  split
  · rfl
  · rfl

theorem isClass_of_frame?_of_callable (hframe : frame? outer capture = some f)
    (h : capture.tag = .callableScope) : f.isClass = false := by
  obtain ⟨-, -, ⟨htag, -⟩ | ⟨-, hcallable, -⟩⟩ := frame?_spec hframe
  · rw [h] at htag
    cases htag
  · exact hcallable

/-- So does a class that has a name. -/
theorem isSome_frame?_of_class (h : capture.tag = .classScope)
    (hname : className? capture.site = some name) : (frame? outer capture).isSome = true := by
  unfold frame?
  rw [h]
  dsimp only
  rw [hname]
  rfl

theorem of_frame?_of_class (hframe : frame? outer capture = some f) (h : capture.tag = .classScope)
    (hname : className? capture.site = some name) : f.isClass = true ∧ f.name = name := by
  obtain ⟨-, -, ⟨-, hfound, hclass, -⟩ | ⟨htag, -⟩⟩ := frame?_spec hframe
  · exact ⟨hclass, Option.some.inj (hfound.symm.trans hname)⟩
  · rw [h] at htag
    cases htag

/-- The scope of a class is opened by a class. -/
theorem tag_of_isClass (h : frame? outer capture = some f) (hclass : f.isClass = true) :
    capture.tag = .classScope := by
  obtain ⟨-, -, ⟨htag, -⟩ | ⟨-, hcallable, -⟩⟩ := frame?_spec h
  · exact htag
  · rw [hclass] at hcallable
    cases hcallable

/-- **What opens a frame opens a scope of the file.** -/
theorem exists_scope_of_mem (frames : List Frame) (hmem : capture ∈ captures)
    (hopens : ∀ outer, (frame? outer capture).isSome) :
    ∃ s ∈ openAll frames captures, frame? s.outer capture = some s.frame := by
  fun_induction openAll frames captures with
  | case1 => cases hmem
  | case2 frames first rest outer frame hframe ih =>
    rcases List.mem_cons.1 hmem with rfl | hmem
    · exact ⟨_, List.mem_cons_self, hframe⟩
    · obtain ⟨s, hs, hopened⟩ := ih hmem
      exact ⟨s, List.mem_cons_of_mem _ hs, hopened⟩
  | case3 frames first rest outer hframe ih =>
    rcases List.mem_cons.1 hmem with rfl | hmem
    · have hsome := hopens outer
      rw [hframe] at hsome
      cases hsome
    · exact ih hmem

/-! ## 3. What stands above -/

/-- The classes and callables above a site, the nearest first. -/
def above (query : Site → Option CallTag) (site : Site) : List (Capture CallTag) :=
  (site.ancestors.filterMap fun s => (query s).map fun tag => ⟨tag, s⟩).filter opensScope

section Above

variable {root : Node} {query : Site → Option CallTag} {site : Site}

theorem mem_above : capture ∈ above query site ↔
    capture.site ∈ site.ancestors ∧ query capture.site = some capture.tag ∧
      opensScope capture = true := by
  obtain ⟨tag, s⟩ := capture
  simp only [above, List.mem_filter, List.mem_filterMap, Option.map_eq_some_iff]
  constructor
  · rintro ⟨⟨t, ht, u, hu, heq⟩, hopens⟩
    cases heq
    exact ⟨ht, hu, hopens⟩
  · rintro ⟨hs, htag, hopens⟩
    exact ⟨⟨s, hs, tag, htag, rfl⟩, hopens⟩

/-- The later of two is above the other. -/
theorem pairwise_above (query : Site → Option CallTag) (site : Site) :
    (above query site).Pairwise fun a b => b.site ∈ a.site.ancestors := by
  refine List.Pairwise.filter _ (List.Pairwise.filterMap _ (fun a b hab c hc d hd => ?_)
    site.pairwise_ancestors)
  obtain ⟨_, -, rfl⟩ := Option.map_eq_some_iff.1 hc
  obtain ⟨_, -, rfl⟩ := Option.map_eq_some_iff.1 hd
  exact hab

end Above

/-! ## 4. The scope around a call -/

section Around

variable {root : Node} {query : Site → Option CallTag} (h : root.IsToldApart query)
  {call : Capture CallTag} (hcall : call ∈ root.captures query)
include h hcall

/-- What stands above a call is captured. -/
theorem mem_captures_of_mem_above (hm : m ∈ above query call.site) :
    m ∈ (root.captures query).filter opensScope := by
  obtain ⟨hanc, htag, hopens⟩ := mem_above.1 hm
  have hsite := (Node.mem_sites_of_mem_ancestors (Node.of_mem_captures hcall).1 hanc).1
  exact List.mem_filter.2 ⟨h.perm_captures.mem_iff.2 (Node.mem_found.2 ⟨hsite, htag⟩), hopens⟩

/-- **A scope that holds a call is opened by what stands above the call.** -/
theorem mem_above_of_encloses (hplain : opensScope call = false) {s : Scope}
    (hs : s ∈ ofCaptures (root.captures query))
    (hin : s.frame.Encloses call.node.start call.node.stop) :
    ∃ c ∈ above query call.site, frame? s.outer c = some s.frame := by
  obtain ⟨c, hc, hopened⟩ := exists_capture_of_mem_openAll hs
  obtain ⟨hmem, hopens⟩ := List.mem_filter.1 hc
  obtain ⟨hsite, htag⟩ := Node.of_mem_captures hmem
  have hcallSite := (Node.of_mem_captures hcall).1
  obtain ⟨hstart, hstop, -⟩ := frame?_spec hopened
  have hapart : ¬ (c.node.start = call.node.start ∧ c.node.stop = call.node.stop) := by
    rintro ⟨hstart, hstop⟩
    rw [h.eq_of_span hmem hcall hstart hstop, hplain] at hopens
    cases hopens
  have hroom : call.node.start < call.node.stop :=
    h.room call (h.perm_captures.mem_iff.1 hcall)
  unfold Frame.Encloses at hin
  rw [hstart, hstop] at hin
  rcases Node.ancestor_or_apart h.laidOut hsite hcallSite with hup | hdown | hdisjoint
  · rcases Site.path_suffix_iff.1 hup with heq | hanc
    · exact absurd ⟨congrArg (·.node.start) heq, congrArg (·.node.stop) heq⟩ hapart
    · exact ⟨c, mem_above.2 ⟨hanc, htag, hopens⟩, hopened⟩
  -- below the call there is no room for what holds it
  · obtain ⟨hge, hle⟩ := Node.liesIn_of_path_suffix h.laidOut hsite hdown
    exact absurd ⟨Nat.le_antisymm hin.1 hge, Nat.le_antisymm hle hin.2⟩ hapart
  · unfold Node.IsApart Capture.node at *
    omega

/-- **The first that opens a scope of a kind opens the innermost.** -/
theorem isInnermost_of_first {before after : List (Capture CallTag)}
    (hsplit : above query call.site = before ++ m :: after) {s : Scope}
    (hs : s ∈ ofCaptures (root.captures query)) (hopened : frame? s.outer m = some s.frame)
    {p : Scope → Prop} (hp : p s)
    (hopens : ∀ t ∈ ofCaptures (root.captures query), p t →
      ∃ c ∈ m :: after, frame? t.outer c = some t.frame) :
    IsInnermost (ofCaptures (root.captures query)) p s := by
  have hinOrder := h.inOrder
  obtain ⟨hstart, hstop, -⟩ := frame?_spec hopened
  refine ⟨hs, hp, fun t ht hpt hne => ?_⟩
  obtain ⟨c, hc, hopenedt⟩ := hopens t ht hpt
  obtain ⟨hstartt, hstopt, -⟩ := frame?_spec hopenedt
  rcases List.mem_cons.1 hc with rfl | hc
  · exact absurd (hinOrder.eq_of_span ht hs (hstartt.trans hstart.symm)
      (hstopt.trans hstop.symm)) hne
  -- what opens another one comes later, so it is above `m` and covers more
  · have hm : m ∈ above query call.site := by
      rw [hsplit]
      exact List.mem_append_right _ List.mem_cons_self
    have hsite := (Node.of_mem_captures (List.mem_filter.1
      (mem_captures_of_mem_above h hcall hm)).1).1
    have hpairs := pairwise_above query call.site
    rw [hsplit, List.pairwise_append, List.pairwise_cons] at hpairs
    have hin := Node.liesIn_of_mem_ancestors h.laidOut hsite (hpairs.2.1.1 c hc)
    refine hinOrder.size_lt_of_liesIn hs ht hne ?_
    unfold Frame.LiesIn Frame.Encloses
    rw [hstart, hstop, hstartt, hstopt]
    exact hin

/-- The scope that stands above a call holds it. -/
theorem encloses_of_mem_above (hm : m ∈ above query call.site) {s : Scope}
    (hopened : frame? s.outer m = some s.frame) :
    s.frame.Encloses call.node.start call.node.stop := by
  obtain ⟨hstart, hstop, -⟩ := frame?_spec hopened
  unfold Frame.Encloses
  rw [hstart, hstop]
  exact Node.liesIn_of_mem_ancestors h.laidOut (Node.of_mem_captures hcall).1 (mem_above.1 hm).1

/-- **The scope around a call is opened by what stands nearest above it.** -/
theorem around?_of_head? (hplain : opensScope call = false)
    (hhead : (above query call.site).head? = some m) {s : Scope}
    (hs : s ∈ ofCaptures (root.captures query)) (hopened : frame? s.outer m = some s.frame) :
    around? (ofCaptures (root.captures query)) call.node = some s := by
  obtain ⟨rest, habove⟩ := List.head?_eq_some_iff.1 hhead
  have hholds : s.frame.Encloses call.node.start call.node.stop :=
    encloses_of_mem_above h hcall (habove ▸ List.mem_cons_self) hopened
  have hinnermost : IsInnermost (ofCaptures (root.captures query))
      (fun t => t.frame.Encloses call.node.start call.node.stop) s := by
    refine isInnermost_of_first h hcall (habove.trans (List.nil_append _).symm) hs hopened hholds
      fun t ht htin => ?_
    rw [← habove]
    exact mem_above_of_encloses h hcall hplain ht htin
  have hfound := findsInnermost_around h.inOrder
    (not_isBetween_of_takesRoom (h.room call (h.perm_captures.mem_iff.1 hcall)))
  cases hresult : around? (ofCaptures (root.captures query)) call.node with
  | none =>
    rw [hresult] at hfound
    exact absurd hholds (hfound s hs)
  | some t =>
    rw [hresult] at hfound
    exact congrArg some (hfound.unique hinnermost)

/-- **A scope belongs to the nearest class above**: `s` to that of `t`. -/
theorem owner_of_find? (hplain : opensScope call = false)
    (hfind : (above query call.site).find? (·.tag == .classScope) = some k) {s t : Scope}
    (hs : s ∈ ofCaptures (root.captures query))
    (hholds : s.frame.Encloses call.node.start call.node.stop)
    (ht : t ∈ ofCaptures (root.captures query)) (hopened : frame? t.outer k = some t.frame)
    (hclass : t.frame.isClass = true) (hinside : s.frame.LiesIn t.frame) :
    s.frame.owner = some t.frame.name := by
  obtain ⟨-, before, after, hsplit, hbefore⟩ := List.find?_eq_some_iff_append.1 hfind
  have hnearest : IsInnermost (ofCaptures (root.captures query))
      (fun u => u.frame.isClass = true ∧ s.frame.LiesIn u.frame) t := by
    refine isInnermost_of_first h hcall hsplit ht hopened ⟨hclass, hinside⟩
      fun u hu ⟨huclass, huin⟩ => ?_
    obtain ⟨c, hc, hopenedu⟩ := mem_above_of_encloses h hcall hplain hu (hholds.of_liesIn huin)
    refine ⟨c, ?_, hopenedu⟩
    -- before `k` there are no classes
    rw [hsplit] at hc
    refine (List.mem_append.1 hc).resolve_left fun hmem => ?_
    have hnot := hbefore c hmem
    rw [tag_of_isClass hopenedu huclass] at hnot
    cases hnot
  obtain ⟨nearest, howner, hfound⟩ := exists_nearest h.inOrder hs
  rw [howner]
  cases nearest with
  | none => exact absurd hnearest.holds (hfound t ht)
  | some u => exact congrArg (fun v : Scope => some v.frame.name) (hfound.unique hnearest)

end Around

/-- **A site stands in a method of a class**: what is nearest above it among classes and callables is a
callable, and the nearest class has the name. -/
structure IsInMethodOf (query : Site → Option CallTag) (site : Site) (name : String) : Prop where
  callable : (above query site).head?.map (·.tag) = some .callableScope
  owner : ((above query site).find? (·.tag == .classScope)).bind (className? ·.site) = some name

instance (query : Site → Option CallTag) (site : Site) (name : String) :
    Decidable (IsInMethodOf query site name) :=
  decidable_of_iff (_ ∧ _) ⟨fun h => ⟨h.1, h.2⟩, fun h => ⟨h.callable, h.owner⟩⟩

/-- **The scope around a call in a method is that of a callable, and belongs to the class.** -/
theorem exists_around {root : Node} {query : Site → Option CallTag} (h : root.IsToldApart query)
    {call : Capture CallTag} (hcall : call ∈ root.captures query) (hplain : opensScope call = false)
    (hin : IsInMethodOf query call.site name) :
    ∃ s, around? (ofCaptures (root.captures query)) call.node = some s ∧
      s.frame.isClass = false ∧ s.frame.owner = some name := by
  obtain ⟨m, hhead, hcallable⟩ := Option.map_eq_some_iff.1 hin.callable
  obtain ⟨k, hfind, hname⟩ := Option.bind_eq_some_iff.1 hin.owner
  obtain ⟨rest, habove⟩ := List.head?_eq_some_iff.1 hhead
  have hm : m ∈ above query call.site := habove ▸ List.mem_cons_self
  have hk : k ∈ above query call.site := List.mem_of_find?_eq_some hfind
  have hclass : k.tag = .classScope := by simpa using List.find?_some hfind
  obtain ⟨s, hs, hopened⟩ := exists_scope_of_mem [] (mem_captures_of_mem_above h hcall hm)
    fun _ => isSome_frame?_of_callable hcallable
  obtain ⟨t, ht, hopenedt⟩ := exists_scope_of_mem [] (mem_captures_of_mem_above h hcall hk)
    fun _ => isSome_frame?_of_class hclass hname
  -- the class stands above the callable
  have hrest : k ∈ rest := by
    rw [habove] at hk
    refine (List.mem_cons.1 hk).resolve_left fun heq => ?_
    rw [heq, hcallable] at hclass
    cases hclass
  have hpairs := pairwise_above query call.site
  rw [habove, List.pairwise_cons] at hpairs
  have hinside : s.frame.LiesIn t.frame := by
    obtain ⟨hstart, hstop, -⟩ := frame?_spec hopened
    obtain ⟨hstartt, hstopt, -⟩ := frame?_spec hopenedt
    unfold Frame.LiesIn Frame.Encloses
    rw [hstart, hstop, hstartt, hstopt]
    exact Node.liesIn_of_mem_ancestors h.laidOut (Node.of_mem_captures (List.mem_filter.1
      (mem_captures_of_mem_above h hcall hm)).1).1 (hpairs.1 k hrest)
  obtain ⟨htclass, htname⟩ := of_frame?_of_class hopenedt hclass hname
  refine ⟨s, around?_of_head? h hcall hplain hhead hs hopened,
    isClass_of_frame?_of_callable hopened hcallable, ?_⟩
  rw [owner_of_find? h hcall hplain hfind hs (encloses_of_mem_above h hcall hm hopened) ht hopenedt
    htclass hinside, htname]

end Scope

end CodeAtlas
