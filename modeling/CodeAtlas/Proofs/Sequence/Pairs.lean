import CodeAtlas.Proofs.Sequence.Analyzer
import CodeAtlas.Proofs.Syntax.Capture
import CodeAtlas.Proofs.Syntax.Span

/-!
# Calls and returns in source order

Going through what is captured of a file, every node either draws a call with its return or nothing
(`Diagram.interactions_addCapture`). So what is drawn in the end is one pair after the other, and the
nodes that have drawn them are some of the calls of the file, in the order in which these come: by
first byte, and of two that start together the outer first (`SequenceAnalyzer.isPaired_analyze`).
Where lines are counted in the text of the file, no interaction stands on an earlier line than the
one before it.
-/

namespace CodeAtlas

open Syntax

/-! ## 1. One call -/

/-- The return of a call. -/
def Interaction.reply (call : Interaction) : Interaction :=
  { source := call.target
    target := call.source
    message := "return"
    kind := .return
    line := call.line
    path := call.path }

/-- Whether a captured call is waited for: the node above it is one that waits. -/
def Syntax.CallSyntax.awaits (calls : CallSyntax) (capture : Capture CallTag) : Bool :=
  capture.site.parent?.any fun parent => calls.awaitKinds.contains parent.kind

/-- The call that a captured node draws. -/
def ResolvedCall.interaction (call : ResolvedCall) (calls : CallSyntax) (caller path : String)
    (capture : Capture CallTag) : Interaction :=
  { source := caller
    target := call.target
    message := s!"{call.method}({capture.node.argumentText})"
    kind := if calls.awaits capture then .async else .sync
    line := capture.node.line
    path }

/-- A captured node is a call or calls a constructor. -/
def isCall (capture : Capture CallTag) : Bool :=
  capture.tag == .call || capture.tag == .new

section Drawing

variable {table : TypeTable} {known : KnownNames} {calls : CallSyntax} {scopes : List Scope}
  {d : Diagram} {capture : Capture CallTag} {call : ResolvedCall}

/-- Only calls are resolved. -/
theorem isCall_of_resolved? {scope : Option Scope}
    (h : resolved? table known calls scope capture = some call) : isCall capture = true := by
  obtain ⟨hfound, -⟩ := Option.filter_eq_some_iff.1 h
  unfold isCall
  split at hfound
  · rename_i htag
    rw [htag]
    rfl
  · rename_i htag
    rw [htag]
    rfl
  · cases hfound

theorem Diagram.interactions_addCall (caller : String) :
    (d.addCall known calls caller call capture).interactions
      = d.interactions ++ [call.interaction calls caller d.path capture,
          (call.interaction calls caller d.path capture).reply] := by
  unfold addCall ResolvedCall.interaction CallSyntax.awaits
  dsimp only
  rw [interactions_add, path_add]
  cases capture.site.parent? with
  | none => rfl
  | some parent => rfl

/-- **What a captured node draws**: nothing, or if it is a call, that call and its return. -/
theorem Diagram.interactions_addCapture (d : Diagram) (capture : Capture CallTag) :
    (d.addCapture table known calls scopes capture).interactions = d.interactions ∨
      isCall capture = true ∧ ∃ (call : ResolvedCall) (caller : String),
        (d.addCapture table known calls scopes capture).interactions
          = d.interactions ++ [call.interaction calls caller d.path capture,
              (call.interaction calls caller d.path capture).reply] := by
  rcases addCapture_cases table known calls scopes d capture with
    hsame | ⟨caller, call, -, hcall, hadded⟩
  · exact Or.inl (congrArg Diagram.interactions hsame)
  · rw [hadded]
    exact Or.inr ⟨isCall_of_resolved? hcall, call, caller, interactions_addCall caller⟩

@[simp] theorem Diagram.path_addCapture :
    (d.addCapture table known calls scopes capture).path = d.path := by
  rcases addCapture_cases table known calls scopes d capture with hsame | ⟨_, _, -, -, hadded⟩
  · rw [hsame]
  · rw [hadded]
    exact path_add

end Drawing

/-! ## 2. All calls -/

/-- **Some captures draw interactions**: one after the other, each a call and its return. -/
inductive DrawPairs (calls : CallSyntax) (path : String) :
    List (Capture CallTag) → List Interaction → Prop
  | nil : DrawPairs calls path [] []
  | cons (capture : Capture CallTag) (call : ResolvedCall) (caller : String)
      {captures : List (Capture CallTag)} {interactions : List Interaction}
      (h : DrawPairs calls path captures interactions) :
      DrawPairs calls path (capture :: captures)
        (call.interaction calls caller path capture ::
          (call.interaction calls caller path capture).reply :: interactions)

/-- **All captures together draw pairs**, behind what is drawn already. Those that draw are calls. -/
theorem exists_drawPairs (table : TypeTable) (known : KnownNames) (calls : CallSyntax)
    (scopes : List Scope) (captures : List (Capture CallTag)) (d : Diagram) :
    ∃ drawn interactions, drawn.Sublist (captures.filter isCall) ∧
      DrawPairs calls d.path drawn interactions ∧
      (captures.foldl (Diagram.addCapture table known calls scopes) d).interactions
        = d.interactions ++ interactions := by
  -- the diagram is general: the first capture hands the rest a longer list
  induction captures generalizing d with
  | nil => exact ⟨[], [], List.Sublist.refl _, .nil, (List.append_nil _).symm⟩
  | cons capture captures ih =>
    obtain ⟨drawn, interactions, hsub, hpairs, hrest⟩ :=
      ih (d.addCapture table known calls scopes capture)
    rw [Diagram.path_addCapture] at hpairs
    rw [List.foldl_cons, hrest]
    rcases d.interactions_addCapture capture with hsame | ⟨hcall, call, caller, hadded⟩
    · rw [hsame]
      exact ⟨drawn, interactions, hsub.trans ((List.sublist_cons_self _ _).filter _), hpairs, rfl⟩
    · rw [hadded, List.append_assoc]
      refine ⟨capture :: drawn, _, ?_, .cons capture call caller hpairs, rfl⟩
      rw [List.filter_cons_of_pos hcall]
      exact hsub.cons_cons capture

namespace DrawPairs

variable {calls : CallSyntax} {path : String} {captures : List (Capture CallTag)}
  {interactions : List Interaction} (h : DrawPairs calls path captures interactions)
include h

theorem length_eq : interactions.length = 2 * captures.length := by
  induction h with
  | nil => rfl
  | cons capture call caller _ ih =>
    rw [List.length_cons, List.length_cons, List.length_cons, ih]
    omega

/-- The pair at a place is drawn by the capture at that place. -/
theorem getElem? {i : Nat} {capture : Capture CallTag} (hi : captures[i]? = some capture) :
    ∃ (call : ResolvedCall) (caller : String),
      interactions[2 * i]? = some (call.interaction calls caller path capture) ∧
      interactions[2 * i + 1]? = some (call.interaction calls caller path capture).reply := by
  -- the first capture takes two places, so those of the rest are two further on
  induction h generalizing i with
  | nil => cases hi
  | cons first call caller _ ih =>
    cases i with
    | zero =>
      cases hi
      exact ⟨call, caller, rfl, rfl⟩
    | succ i => exact ih hi

/-- Every interaction stands on the line of a capture. -/
theorem exists_line_eq {i : Interaction} (hi : i ∈ interactions) :
    ∃ capture ∈ captures, i.line = capture.node.line := by
  induction h with
  | nil => exact absurd hi List.not_mem_nil
  | cons capture call caller _ ih =>
    rcases List.mem_cons.1 hi with rfl | hi
    · exact ⟨capture, List.mem_cons_self, rfl⟩
    rcases List.mem_cons.1 hi with rfl | hi
    · exact ⟨capture, List.mem_cons_self, rfl⟩
    · obtain ⟨other, hother, hline⟩ := ih hi
      exact ⟨other, List.mem_cons_of_mem _ hother, hline⟩

/-- **Lines of interactions come in the order of the captures.** -/
theorem pairwise_line (hlines : captures.Pairwise fun a b => a.node.line ≤ b.node.line) :
    interactions.Pairwise fun i j => i.line ≤ j.line := by
  induction h with
  | nil => exact List.Pairwise.nil
  | cons capture call caller hrest ih =>
    obtain ⟨hfirst, hlines⟩ := List.pairwise_cons.1 hlines
    -- a call and its return stand on one line, and what is drawn after them on a later one or there
    have hle : ∀ i : Interaction, i ∈ _ → capture.node.line ≤ i.line := fun i hi => by
      obtain ⟨other, hother, hline⟩ := hrest.exists_line_eq hi
      exact hline ▸ hfirst other hother
    refine List.pairwise_cons.2 ⟨fun i hi => ?_, List.pairwise_cons.2 ⟨hle, ih hlines⟩⟩
    rcases List.mem_cons.1 hi with rfl | hi
    · exact Nat.le_refl _
    · exact hle i hi

end DrawPairs

/-! ## 3. Files -/

/-- The calls and constructor calls of a file, in source order. -/
def Outline.callsInOrder (o : Outline) : List (Capture CallTag) :=
  o.callCaptures.filter isCall

/-- A captured call is waited for, in the language of the file. -/
def Outline.Awaits (o : Outline) (capture : Capture CallTag) : Prop :=
  ∃ calls parent, CallSyntax.ofLanguage? o.language = some calls ∧
    capture.site.parent? = some parent ∧ parent.kind ∈ calls.awaitKinds

/-- **A captured node draws a call**: on its line and with its arguments, under the path of the file,
and asynchronous just if it is waited for. -/
structure Outline.DrawsAs (o : Outline) (capture : Capture CallTag) (call : Interaction) : Prop where
  kind : call.kind = .sync ∨ call.kind = .async
  async_iff : call.kind = .async ↔ o.Awaits capture
  message : ∃ method : String, call.message = s!"{method}({capture.node.argumentText})"
  line : call.line = capture.node.line
  path : call.path = o.path

/-- **The interactions of a file are pairs in source order.** -/
structure Outline.IsPaired (o : Outline) (drawn : List (Capture CallTag))
    (interactions : List Interaction) : Prop where
  /-- They are drawn by calls of the file. -/
  sublist : drawn.Sublist o.callsInOrder
  /-- No node draws twice. -/
  nodup : (drawn.map Capture.key).Nodup
  /-- What starts first is drawn first, and of two calls that start together the outer one. -/
  inOrder : drawn.Pairwise fun a b => a.node.start < b.node.start ∨
    a.node.start = b.node.start ∧ b.node.stop ≤ a.node.stop
  length_eq : interactions.length = 2 * drawn.length
  /-- Each call is followed by its return. -/
  pair : ∀ i capture, drawn[i]? = some capture → ∃ call,
    interactions[2 * i]? = some call ∧ o.DrawsAs capture call ∧
    interactions[2 * i + 1]? = some call.reply
  /-- Lines never decrease, if they are counted in the text of the file. -/
  pairwise_line : (∀ root, o.tree = some root → ∃ source, root.HasLinesOf source) →
    interactions.Pairwise fun i j => i.line ≤ j.line

theorem Outline.awaits_iff {o : Outline} {calls : CallSyntax}
    (hcalls : CallSyntax.ofLanguage? o.language = some calls) {capture : Capture CallTag} :
    o.Awaits capture ↔ calls.awaits capture = true := by
  unfold Awaits CallSyntax.awaits
  rw [hcalls]
  cases capture.site.parent? with
  | none => simp
  | some parent => simp

theorem Outline.drawsAs_interaction {o : Outline} {calls : CallSyntax}
    (hcalls : CallSyntax.ofLanguage? o.language = some calls) (call : ResolvedCall)
    (caller : String) (capture : Capture CallTag) :
    o.DrawsAs capture (call.interaction calls caller o.path capture) where
  kind := by
    dsimp only [ResolvedCall.interaction]
    split
    · exact Or.inr rfl
    · exact Or.inl rfl
  async_iff := by
    rw [awaits_iff hcalls]
    dsimp only [ResolvedCall.interaction]
    split
    · rename_i hawaits
      exact iff_of_true rfl hawaits
    · rename_i hawaits
      exact iff_of_false InteractionKind.noConfusion hawaits
  message := ⟨_, rfl⟩
  line := rfl
  path := rfl

/-- Every capture of a file is of a node of its tree. -/
theorem Outline.exists_site_of_mem_callCaptures {o : Outline} {capture : Capture CallTag}
    (h : capture ∈ o.callCaptures) : ∃ root, o.tree = some root ∧ capture.site ∈ root.sites := by
  unfold callCaptures at h
  split at h
  · rename_i root calls htree hcalls
    exact ⟨root, htree, (Node.of_mem_captures h).1⟩
  · exact absurd h List.not_mem_nil

theorem Outline.pairwise_before_callCaptures (o : Outline) :
    o.callCaptures.Pairwise fun a b => a.before b = true := by
  unfold callCaptures
  split
  · exact Capture.pairwise_before_inOrder _
  · exact List.Pairwise.nil

theorem Outline.nodup_key_callCaptures (o : Outline) :
    (o.callCaptures.map Capture.key).Nodup := by
  unfold callCaptures
  split
  · exact Capture.nodup_key_inOrder _
  · exact List.nodup_nil

/-- The lines of captures come in source order. -/
theorem Outline.pairwise_line_callCaptures {o : Outline}
    (h : ∀ root, o.tree = some root → ∃ source, root.HasLinesOf source) :
    o.callCaptures.Pairwise fun a b => a.node.line ≤ b.node.line := by
  -- captures come by first byte, and a line is the count of line feeds before it
  refine o.pairwise_callCaptures.imp_of_mem fun {a b} ha hb hle => ?_
  obtain ⟨root, htree, hsite⟩ := exists_site_of_mem_callCaptures ha
  obtain ⟨other, hother, hsite'⟩ := exists_site_of_mem_callCaptures hb
  obtain rfl : root = other := Option.some.inj (htree.symm.trans hother)
  obtain ⟨source, hlines⟩ := h root htree
  exact hlines.line_le hsite hsite' hle

/-- **Pairs that calls of a file draw are pairs in source order.** -/
theorem Outline.isPaired_of_drawPairs {o : Outline} {calls : CallSyntax}
    (hcalls : CallSyntax.ofLanguage? o.language = some calls) {drawn : List (Capture CallTag)}
    {interactions : List Interaction} (hsub : drawn.Sublist o.callsInOrder)
    (h : DrawPairs calls o.path drawn interactions) : o.IsPaired drawn interactions := by
  have hcaptures : drawn.Sublist o.callCaptures := hsub.trans List.filter_sublist
  exact
    { sublist := hsub
      nodup := o.nodup_key_callCaptures.sublist (hcaptures.map _)
      inOrder := (o.pairwise_before_callCaptures.sublist hcaptures).imp Capture.before_iff.1
      length_eq := h.length_eq
      pair := fun i capture hi => by
        obtain ⟨call, caller, hcall, hreply⟩ := h.getElem? hi
        exact ⟨_, hcall, drawsAs_interaction hcalls call caller capture, hreply⟩
      pairwise_line := fun hlines =>
        h.pairwise_line ((pairwise_line_callCaptures hlines).sublist hcaptures) }

/-- A file without a tree whose calls can be read has no interactions. -/
theorem SequenceReport.interactions_cases (o : Outline) : (ofOutline o).interactions = [] ∨
    ∃ root calls, o.tree = some root ∧ CallSyntax.ofLanguage? o.language = some calls := by
  unfold ofOutline
  dsimp only
  split
  · rename_i root calls htree hcalls
    exact Or.inr ⟨root, calls, htree, hcalls⟩
  · exact Or.inl (Diagram.interactions_ofOutline o)

theorem Outline.isPaired_nil (o : Outline) : o.IsPaired [] [] where
  sublist := List.nil_sublist _
  nodup := List.nodup_nil
  inOrder := List.Pairwise.nil
  length_eq := rfl
  pair := fun _ _ h => by cases h
  pairwise_line := fun _ => List.Pairwise.nil

/-- **The interactions of every file are call and return pairs in source order**, whatever the
analyzer has drawn before. -/
theorem SequenceAnalyzer.isPaired_analyze (a : SequenceAnalyzer) (o : Outline) :
    ∃ drawn, o.IsPaired drawn (a.analyze o).2.interactions := by
  rw [report_analyze]
  rcases SequenceReport.interactions_cases o with hnone | ⟨root, calls, htree, hcalls⟩
  · exact ⟨[], hnone ▸ o.isPaired_nil⟩
  · have hcaptures : o.callCaptures = root.captures (byKind calls.tags) := by
      rw [Outline.callCaptures, htree, hcalls]
    obtain ⟨drawn, interactions, hsub, hpairs, hdrawn⟩ :=
      exists_drawPairs _ _ calls _ (root.captures (byKind calls.tags)) (Diagram.ofOutline o)
    rw [(Diagram.isAt_ofOutline o).own] at hpairs
    rw [SequenceReport.ofOutline_of_tree htree hcalls, Diagram.ofCaptures, hdrawn,
      Diagram.interactions_ofOutline, List.nil_append]
    refine ⟨drawn, Outline.isPaired_of_drawPairs hcalls ?_ hpairs⟩
    rw [Outline.callsInOrder, hcaptures]
    exact hsub

/-- A method that waits for a new object, which is given another. -/
def awaitText : String :=
  "class A \x7b\n  async m() \x7b\n    await new A(new A());\n  \x7d\n\x7d\n"

/-- The tree of `awaitText`. -/
def awaitTree : Node :=
  let rule := (Source.ofString awaitText).rule
  let token := (Source.ofString awaitText).token
  let outer : Node :=
    rule 17 "new_expression" none 34 48
      [token 18 "new" 34 37, rule 19 "identifier" (some "constructor") 38 39 [],
        rule 20 "arguments" (some "arguments") 39 48
          [token 21 "(" 39 40,
            rule 22 "new_expression" none 40 47
              [token 23 "new" 40 43, rule 24 "identifier" (some "constructor") 44 45 [],
                rule 25 "arguments" (some "arguments") 45 47
                  [token 26 "(" 45 46, token 27 ")" 46 47]],
            token 28 ")" 47 48]]
  rule 0 "program" none 0 56
    [rule 1 "class_declaration" none 0 55
      [token 2 "class" 0 5, rule 3 "type_identifier" (some "name") 6 7 [],
        rule 4 "class_body" (some "body") 8 55
          [token 5 "\x7b" 8 9,
            rule 6 "method_definition" none 12 53
              [token 7 "async" 12 17, rule 8 "property_identifier" (some "name") 18 19 [],
                rule 9 "formal_parameters" (some "parameters") 19 21
                  [token 10 "(" 19 20, token 11 ")" 20 21],
                rule 12 "statement_block" (some "body") 22 53
                  [token 13 "\x7b" 22 23,
                    rule 14 "expression_statement" none 28 49
                      [rule 15 "await_expression" none 28 48 [token 16 "await" 28 33, outer],
                        token 29 ";" 48 49],
                    token 30 "\x7d" 52 53]],
            token 31 "\x7d" 54 55]]]

/-- The outline of `awaitText`. -/
def awaitOutline : Outline :=
  Outline.ofSoundTree .typescript "/src/a.ts" awaitTree

/-- The outer constructor call is drawn before the inner one, and it alone is waited for. -/
theorem isPaired_awaitOutline :
    awaitTree.HasLinesOf (Source.ofString awaitText) ∧
    (SequenceReport.ofOutline awaitOutline).interactions.map (fun i => (i.kind, i.line))
      = [(.async, 3), (.return, 3), (.sync, 3), (.return, 3)] ∧
    ∃ drawn, drawn.length = 2 ∧ awaitOutline.IsPaired drawn
      (({} : SequenceAnalyzer).analyze awaitOutline).2.interactions ∧
    (({} : SequenceAnalyzer).analyze awaitOutline).2.interactions.Pairwise fun i j =>
      i.line ≤ j.line := by
  have hlines : awaitTree.HasLinesOf (Source.ofString awaitText) := by decide +kernel
  have hcaptures : awaitTree.captures (byKind (CallSyntax.script
        ["class_declaration", "abstract_class_declaration", "class"]).tags)
      = awaitTree.picked (byKind (CallSyntax.script
        ["class_declaration", "abstract_class_declaration", "class"]).tags) :=
    Node.captures_eq_picked (by decide +kernel)
  have hkinds : (SequenceReport.ofOutline awaitOutline).interactions.map
      (fun i => (i.kind, i.line)) = [(.async, 3), (.return, 3), (.sync, 3), (.return, 3)] := by
    rw [SequenceReport.ofOutline_of_tree rfl rfl, hcaptures]
    decide +kernel
  obtain ⟨drawn, hdrawn⟩ := SequenceAnalyzer.isPaired_analyze {} awaitOutline
  refine ⟨hlines, hkinds, drawn, ?_, hdrawn, hdrawn.pairwise_line fun root htree => ?_⟩
  · have hlength := hdrawn.length_eq
    rw [SequenceAnalyzer.report_analyze, ← List.length_map, hkinds] at hlength
    exact (Nat.eq_of_mul_eq_mul_left Nat.two_pos hlength).symm
  · cases htree
    exact ⟨_, hlines⟩

end CodeAtlas
