import CodeAtlas.Proofs.Sorted
import CodeAtlas.Proofs.Syntax.Capture
import CodeAtlas.Sequence.Scope
import Mathlib.Data.List.Find
import Mathlib.Data.List.TakeWhile

/-!
# The scopes around a piece of code

Captures come in source order, so the frames that are open at any moment lie inside each other
(`pairwise_chain_openAll`), and the scope that is found around a node does enclose it, as do all
scopes around that one (`encloses_of_mem_chainOf`). What belongs to a class has a scope of that class
around it (`exists_class_mem_chainOf`).
-/

namespace CodeAtlas

open Syntax

/-! ## 1. Frames -/

/-- **A frame encloses** a span. -/
def Frame.Encloses (f : Frame) (start stop : Nat) : Prop :=
  f.start ≤ start ∧ stop ≤ f.stop

instance (f : Frame) (start stop : Nat) : Decidable (f.Encloses start stop) :=
  inferInstanceAs (Decidable (_ ∧ _))

/-- A frame lies inside another. -/
def Frame.LiesIn (f outer : Frame) : Prop :=
  outer.Encloses f.start f.stop

theorem Frame.Encloses.of_liesIn {f outer : Frame} {start stop : Nat} (h : f.Encloses start stop)
    (houter : f.LiesIn outer) : outer.Encloses start stop :=
  ⟨Nat.le_trans houter.1 h.1, Nat.le_trans h.2 houter.2⟩

namespace Scope

variable {frames outer : List Frame} {capture : Capture CallTag} {captures : List (Capture CallTag)}
  {f : Frame} {s : Scope}

/-- **What a frame is**: it spans the captured node; a class owns itself, and a callable belongs to
what is around it, under a key of its own name or, without a name, of its span. -/
theorem frame?_spec (h : frame? outer capture = some f) :
    f.start = capture.node.start ∧ f.stop = capture.node.stop ∧
      (capture.tag = .classScope ∧ className? capture.site = some f.name ∧
          f.isClass = true ∧ f.owner = some f.name ∨
        capture.tag = .callableScope ∧ f.isClass = false ∧
          f.owner = outer.head?.bind (·.owner) ∧
          (f.key = .callable f.owner f.name ∨ f.key = .span f.start f.stop)) := by
  unfold frame? at h
  dsimp only at h
  split at h
  · rename_i htag
    obtain ⟨name, hname, rfl⟩ := Option.map_eq_some_iff.1 h
    exact ⟨rfl, rfl, Or.inl ⟨htag, hname, rfl, rfl⟩⟩
  · rename_i htag
    split at h
    · cases h
      exact ⟨rfl, rfl, Or.inr ⟨htag, rfl, rfl, Or.inl rfl⟩⟩
    · cases h
      exact ⟨rfl, rfl, Or.inr ⟨htag, rfl, rfl, Or.inr rfl⟩⟩
  · cases h

/-! ## 2. Opening scopes -/

/-- What a capture leaves open was open before. -/
theorem mem_of_mem_dropWhile (hf : f ∈ frames.dropWhile fun f => f.stop < capture.node.stop) :
    f ∈ frames :=
  (List.dropWhile_sublist _).mem hf

/-- **Every scope is opened by a capture** inside the frames around it. -/
theorem exists_capture_of_mem_openAll (h : s ∈ openAll frames captures) :
    ∃ capture ∈ captures, frame? s.outer capture = some s.frame := by
  fun_induction openAll frames captures with
  | case1 => cases h
  | case2 frames capture rest outer frame hframe ih =>
    rcases List.mem_cons.1 h with rfl | h
    · exact ⟨capture, List.mem_cons_self, hframe⟩
    · obtain ⟨c, hc, hopened⟩ := ih h
      exact ⟨c, List.mem_cons_of_mem capture hc, hopened⟩
  | case3 frames capture rest outer hframe ih =>
    obtain ⟨c, hc, hopened⟩ := ih h
    exact ⟨c, List.mem_cons_of_mem capture hc, hopened⟩

/-- Callables keep their variables apart from those of the module. -/
theorem key_ne_module (h : s ∈ openAll frames captures) (hcallable : s.frame.isClass = false) :
    s.frame.key ≠ .module := by
  obtain ⟨capture, -, hframe⟩ := exists_capture_of_mem_openAll h
  obtain ⟨-, -, ⟨-, -, hclass, -⟩ | ⟨-, -, -, hkey | hkey⟩⟩ := frame?_spec hframe
  · rw [hclass] at hcallable
    cases hcallable
  · rw [hkey]
    exact ScopeKey.noConfusion
  · rw [hkey]
    exact ScopeKey.noConfusion

/-- The frames around a scope are those of scopes that were opened before it. -/
theorem exists_scope_of_mem_chain_openAll (h : s ∈ openAll frames captures) (hf : f ∈ s.chain) :
    f ∈ frames ∨ ∃ t ∈ openAll frames captures, t.frame = f := by
  fun_induction openAll frames captures with
  | case1 => cases h
  | case2 frames capture rest outer frame hframe ih =>
    have hopen : f ∈ frame :: outer →
        f ∈ frames ∨ ∃ t ∈ ⟨frame, outer⟩ :: openAll (frame :: outer) rest, t.frame = f := by
      intro hf
      rcases List.mem_cons.1 hf with rfl | hf
      · exact Or.inr ⟨_, List.mem_cons_self, rfl⟩
      · exact Or.inl (mem_of_mem_dropWhile hf)
    rcases List.mem_cons.1 h with rfl | h
    · exact hopen hf
    · rcases ih h with hf | ⟨t, ht, heq⟩
      · exact hopen hf
      · exact Or.inr ⟨t, List.mem_cons_of_mem _ ht, heq⟩
  | case3 frames capture rest outer hframe ih => exact (ih h).imp_left mem_of_mem_dropWhile

/-- The frames that a capture leaves open enclose it. -/
theorem encloses_of_mem_dropWhile (hnested : frames.Pairwise Frame.LiesIn)
    (hbefore : ∀ f ∈ frames, f.start ≤ capture.node.start)
    (hf : f ∈ frames.dropWhile fun f => f.stop < capture.node.stop) :
    f.Encloses capture.node.start capture.node.stop := by
  refine ⟨hbefore f (mem_of_mem_dropWhile hf), ?_⟩
  have hmono : frames.Pairwise fun a b : Frame =>
      decide (b.stop < capture.node.stop) = true → decide (a.stop < capture.node.stop) = true :=
    hnested.imp fun hab hb => decide_eq_true (Nat.lt_of_le_of_lt hab.2 (of_decide_eq_true hb))
  have := Sorted.not_of_mem_dropWhile hmono hf
  simpa using this

/-- **The frames around a scope lie inside each other**, if captures come in source order. -/
theorem pairwise_chain_openAll (hcaptures : captures.Pairwise fun a b => a.node.start ≤ b.node.start)
    (hnested : frames.Pairwise Frame.LiesIn)
    (hbefore : ∀ f ∈ frames, ∀ c ∈ captures, f.start ≤ c.node.start)
    (h : s ∈ openAll frames captures) : s.chain.Pairwise Frame.LiesIn := by
  fun_induction openAll frames captures with
  | case1 => cases h
  | case2 frames capture rest outer frame hframe ih =>
    obtain ⟨hstart, hstop, -⟩ := frame?_spec hframe
    have hchain : (frame :: outer).Pairwise Frame.LiesIn := by
      refine List.pairwise_cons.2 ⟨fun f hf => ?_, hnested.sublist (List.dropWhile_sublist _)⟩
      rw [Frame.LiesIn, hstart, hstop]
      exact encloses_of_mem_dropWhile hnested
        (fun g hg => hbefore g hg capture List.mem_cons_self) hf
    rcases List.mem_cons.1 h with rfl | h
    · exact hchain
    · refine ih hcaptures.of_cons hchain (fun f hf c hc => ?_) h
      rcases List.mem_cons.1 hf with rfl | hf
      · rw [hstart]
        exact List.rel_of_pairwise_cons hcaptures hc
      · exact hbefore f (mem_of_mem_dropWhile hf) c (List.mem_cons_of_mem capture hc)
  | case3 frames capture rest outer hframe ih =>
    exact ih hcaptures.of_cons (hnested.sublist (List.dropWhile_sublist _))
      (fun f hf c hc => hbefore f (mem_of_mem_dropWhile hf) c (List.mem_cons_of_mem capture hc)) h

/-- Scopes stand to each other as the captures that open them. -/
theorem pairwise_frames_openAll {R : Nat → Nat → Nat → Nat → Prop}
    (hcaptures : captures.Pairwise fun a b => R a.node.start a.node.stop b.node.start b.node.stop) :
    (openAll frames captures).Pairwise fun s t =>
      R s.frame.start s.frame.stop t.frame.start t.frame.stop := by
  fun_induction openAll frames captures with
  | case1 => exact List.Pairwise.nil
  | case2 frames capture rest outer frame hframe ih =>
    refine List.pairwise_cons.2 ⟨fun t ht => ?_, ih hcaptures.of_cons⟩
    obtain ⟨c, hc, hopened⟩ := exists_capture_of_mem_openAll ht
    obtain ⟨hstart, hstop, -⟩ := frame?_spec hframe
    obtain ⟨hstart', hstop', -⟩ := frame?_spec hopened
    rw [hstart, hstop, hstart', hstop']
    exact List.rel_of_pairwise_cons hcaptures hc
  | case3 frames capture rest outer hframe ih => exact ih hcaptures.of_cons

/-- **Scopes stand in source order.** -/
theorem pairwise_openAll (hcaptures : captures.Pairwise fun a b => a.node.start ≤ b.node.start) :
    (openAll frames captures).Pairwise fun a b => a.frame.start ≤ b.frame.start :=
  pairwise_frames_openAll (R := fun start _ start' _ => start ≤ start') hcaptures

/-- **A chain names the owners of its frames**: what belongs to a class belongs to the nearest one on
the way out. -/
def NamesOwners (chain : List Frame) : Prop :=
  ∀ f outer, f :: outer <:+ chain → f.owner = ((f :: outer).find? (·.isClass)).map (·.name)

theorem namesOwners_nil : NamesOwners [] := fun f outer hsuffix =>
  absurd (List.suffix_nil.1 hsuffix) (List.cons_ne_nil f outer)

theorem NamesOwners.dropWhile (h : NamesOwners frames) (p : Frame → Bool) :
    NamesOwners (frames.dropWhile p) :=
  fun f outer hsuffix => h f outer (hsuffix.trans (List.dropWhile_suffix p))

/-- **One more frame leaves that so**: a class owns itself, and a callable belongs to the class that
the first frame around it belongs to. -/
theorem NamesOwners.cons (h : NamesOwners outer) (hframe : frame? outer capture = some f) :
    NamesOwners (f :: outer) := by
  intro g rest hsuffix
  rcases List.suffix_cons_iff.1 hsuffix with heq | hsuffix
  · cases heq
    obtain ⟨-, -, ⟨-, -, hclass, hself⟩ | ⟨-, hcallable, hhead, -⟩⟩ := frame?_spec hframe
    · rw [hself, List.find?_cons_of_pos hclass]
      rfl
    · rw [hhead, List.find?_cons_of_neg (Bool.eq_false_iff.1 hcallable)]
      cases outer with
      | nil => rfl
      | cons first more => exact h first more (List.suffix_refl _)
  · exact h g rest hsuffix

/-- **The chain of every scope names the owners of its frames.** -/
theorem namesOwners_chain_openAll (hframes : NamesOwners frames) (h : s ∈ openAll frames captures) :
    NamesOwners s.chain := by
  fun_induction openAll frames captures with
  | case1 => cases h
  | case2 frames capture rest outer frame hframe ih =>
    have hchain : NamesOwners (frame :: outer) := (hframes.dropWhile _).cons hframe
    rcases List.mem_cons.1 h with rfl | h
    · exact hchain
    · exact ih hchain h
  | case3 frames capture rest outer hframe ih => exact ih (hframes.dropWhile _) h

/-- What a scope belongs to is the nearest class of its chain. -/
theorem owner_eq_find? (h : s ∈ openAll [] captures) :
    s.frame.owner = (s.chain.find? (·.isClass)).map (·.name) :=
  namesOwners_chain_openAll namesOwners_nil h s.frame s.outer (List.suffix_refl _)

/-! ## 3. The scope around a node -/

section Around

variable {scopes : List Scope} {node : Node} {name : String}

theorem mem_of_around? (h : around? scopes node = some s) : s ∈ scopes :=
  List.mem_reverse.1 ((List.dropWhile_sublist _).mem (List.mem_of_find?_eq_some h))

/-- **The scope around a node is the last that encloses it**, where scopes stand in source order. -/
theorem around?_eq_find? (hscopes : scopes.Pairwise fun a b => a.frame.start ≤ b.frame.start) :
    around? scopes node
      = scopes.reverse.find? fun s => decide (s.frame.Encloses node.start node.stop) := by
  have hmono : scopes.reverse.Pairwise fun a b : Scope =>
      decide (node.start < b.frame.start) = true → decide (node.start < a.frame.start) = true :=
    List.pairwise_reverse.2 (hscopes.imp fun hab hb =>
      decide_eq_true (Nat.lt_of_lt_of_le (of_decide_eq_true hb) hab))
  have hlate : (scopes.reverse.takeWhile fun s => node.start < s.frame.start).find?
      (fun s => decide (s.frame.Encloses node.start node.stop)) = none := by
    refine List.find?_eq_none.2 fun s hs hin => ?_
    have hafter : node.start < s.frame.start := by simpa using List.mem_takeWhile_imp hs
    have hbefore : s.frame.start ≤ node.start := (of_decide_eq_true hin).1
    omega
  conv_rhs => rw [← List.takeWhile_append_dropWhile (p := fun s : Scope =>
    decide (node.start < s.frame.start)) (l := scopes.reverse), List.find?_append, hlate]
  refine List.find?_congr fun s hs => ?_
  have hstart := Sorted.not_of_mem_dropWhile hmono hs
  rw [decide_eq_true_eq, Nat.not_lt] at hstart
  exact decide_eq_decide.2 (iff_and_self.2 fun _ => hstart)

/-- **It encloses the node.** -/
theorem encloses_of_around? (hscopes : scopes.Pairwise fun a b => a.frame.start ≤ b.frame.start)
    (h : around? scopes node = some s) : s.frame.Encloses node.start node.stop := by
  rw [around?_eq_find? hscopes] at h
  have hin := List.find?_some h
  exact of_decide_eq_true hin

/-- **So do all scopes around that one.** -/
theorem encloses_of_mem_chainOf (hcaptures : captures.Pairwise fun a b => a.node.start ≤ b.node.start)
    (hf : f ∈ chainOf (around? (ofCaptures captures) node)) : f.Encloses node.start node.stop := by
  have hopening := hcaptures.sublist (List.filter_sublist (p := opensScope))
  cases hscope : around? (ofCaptures captures) node with
  | none =>
    rw [hscope] at hf
    cases hf
  | some s =>
    rw [hscope] at hf
    have hencloses := encloses_of_around? (pairwise_openAll hopening) hscope
    have hchain : s.chain.Pairwise Frame.LiesIn :=
      pairwise_chain_openAll hopening List.Pairwise.nil (fun _ h => absurd h List.not_mem_nil)
        (mem_of_around? hscope)
    rcases List.mem_cons.1 hf with rfl | hf
    · exact hencloses
    · exact hencloses.of_liesIn ((List.pairwise_cons.1 hchain).1 f hf)

/-- The frames around a node are those of scopes of the file. -/
theorem exists_scope_of_mem_chainOf (hf : f ∈ chainOf (around? (ofCaptures captures) node)) :
    ∃ s ∈ ofCaptures captures, s.frame = f := by
  cases hscope : around? (ofCaptures captures) node with
  | none =>
    rw [hscope] at hf
    cases hf
  | some s =>
    rw [hscope] at hf
    exact (exists_scope_of_mem_chain_openAll (mem_of_around? hscope) hf).resolve_left
      List.not_mem_nil

/-- **The class that a piece of code belongs to** is around it. -/
theorem exists_class_mem_chainOf (h : ownerOf (around? (ofCaptures captures) node) = some name) :
    ∃ f ∈ chainOf (around? (ofCaptures captures) node), f.isClass = true ∧ f.name = name := by
  obtain ⟨s, hs, howner⟩ := Option.bind_eq_some_iff.1 h
  rw [owner_eq_find? (mem_of_around? hs)] at howner
  obtain ⟨f, hf, hname⟩ := Option.map_eq_some_iff.1 howner
  rw [hs]
  exact ⟨f, List.mem_of_find?_eq_some hf, List.find?_some hf, hname⟩

/-- It is one of the file. -/
theorem exists_class_of_ownerOf (h : ownerOf (around? (ofCaptures captures) node) = some name) :
    ∃ s ∈ ofCaptures captures, s.frame.isClass = true ∧ s.frame.name = name := by
  obtain ⟨f, hf, hclass⟩ := exists_class_mem_chainOf h
  obtain ⟨s, hs, rfl⟩ := exists_scope_of_mem_chainOf hf
  exact ⟨s, hs, hclass⟩

end Around

end Scope

end CodeAtlas
