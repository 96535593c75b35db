import CodeAtlas.Proofs.Sequence.Lexical
import CodeAtlas.Proofs.Sequence.Pairs
import CodeAtlas.Proofs.Sequence.Targets
import CodeAtlas.Proofs.Syntax.Chain

/-!
# Constructor calls of classes of the file

A class that a file declares is never left out of its diagram: every constructor call of it inside a
method of a class is drawn, from that class to the one that is constructed
(`SequenceReport.draws_of_constructsOwn`). The name has to be one that is taken for a declared type,
though. Of a class with a name of the tables, such as `Record`, no constructor call is drawn: the
tables are asked before anybody asks what the file declares (`SequenceReport.drops_record`).
-/

namespace CodeAtlas

open Syntax

/-! ## 1. Names of classes -/

/-- No identifier ends with a line feed. -/
theorem TypeName.dropFinalNewline_of_isIdentifier {cs : List Char} (h : isIdentifier cs = true) :
    Text.dropFinalNewline cs = cs := by
  -- a line feed is neither a first character of identifiers nor a later one
  have hnone : '\n' ∉ cs := by
    intro hmem
    cases cs with
    | nil => cases h
    | cons c rest =>
      obtain ⟨hstart, hrest⟩ := Bool.and_eq_true_iff.1 h
      rcases List.mem_cons.1 hmem with heq | hmem
      · rw [← heq] at hstart
        exact absurd hstart (by decide)
      · exact absurd (List.all_eq_true.1 hrest _ hmem) (by decide)
  unfold Text.dropFinalNewline Text.dropFinal?
  rw [if_neg fun hsuffix => hnone ((List.isSuffixOf_iff_suffix.1 hsuffix).subset List.mem_cons_self)]
  rfl

/-- **A capitalised identifier is taken for a declared type**, unless a table has it. -/
theorem TypeName.classify_of_isIdentifier {name : String} (hname : isIdentifier name.toList = true)
    (hcapital : isCapitalised name.toList = true)
    (hfree : name ∉ untypedNames ++ primitiveNames ++ builtinNames) :
    classify name = .declared := by
  rw [List.mem_append, List.mem_append, not_or, not_or] at hfree
  obtain ⟨⟨huntyped, hprimitive⟩, hbuiltin⟩ := hfree
  have hempty : name.isEmpty = false := by
    refine Bool.eq_false_iff.2 fun hempty => ?_
    rw [String.isEmpty_iff.1 hempty] at hname
    cases hname
  unfold classify
  rw [hempty, Bool.false_or, if_neg (mt List.contains_iff_mem.1 huntyped),
    if_neg (mt List.contains_iff_mem.1 hprimitive), if_neg (mt List.contains_iff_mem.1 hbuiltin),
    dropFinalNewline_of_isIdentifier hname, hname, hcapital]
  rfl

/-! ## 2. What is constructed -/

/-- **A captured node constructs a class**: with a keyword, or where there is none, by a call of its
name. -/
inductive Constructs (calls : CallSyntax) (capture : Capture CallTag) (name : String) : Prop
  | new (htag : capture.tag = .new) (hkind : capture.node.kind ∈ calls.newKinds)
      (hname : (capture.node.firstField? ["constructor", "type"]).map (typeHead ·.text) = some name)
  | call (htag : capture.tag = .call) (hnone : calls.newKinds = [])
      (hkind : capture.node.kind ∈ calleeKinds)
      (hname : (capture.node.field? "function").map (fun f => (f.kind, f.text))
        = some ("identifier", name))

section Resolving

variable {o : Outline} {calls : CallSyntax} {capture : Capture CallTag} {name owner : String}
  {table : TypeTable} {scope : Option Scope}

/-- What the file declares is not left out. -/
theorem isFiltered_of_declares (h : name ∈ o.classes.map (·.name)) :
    isFiltered (.ofOutline o) name = false := by
  have hdeclares : (KnownNames.ofOutline o).declaresClass name = true := by
    obtain ⟨c, hc, rfl⟩ := List.mem_map.1 h
    exact List.any_eq_true.2 ⟨_, List.mem_append_left _ (List.mem_map_of_mem hc), beq_self_eq_true _⟩
  unfold isFiltered
  rw [hdeclares]
  rfl

/-- **A constructor call resolves to the class**, if its name is taken for a declared type and, where
there is no keyword, neither a method of the class around the call nor a function has it. -/
theorem resolved?_of_constructs (h : Constructs calls capture name)
    (hdeclares : name ∈ o.classes.map (·.name)) (htype : TypeName.classify name = .declared)
    (howner : Scope.ownerOf scope = some owner)
    (hmethod : (KnownNames.ofOutline o).hasMethod owner name = false)
    (hfunction : name ∉ o.functions.map (·.name)) :
    resolved? table (.ofOutline o) calls scope capture = some ⟨name, "constructor"⟩ := by
  have hkept : (!isFiltered (.ofOutline o) name) = true := by
    rw [isFiltered_of_declares hdeclares]
    rfl
  have hdeclared : TypeName.isDeclared name = true := TypeName.isDeclared_iff.2 htype
  have hne : name.isEmpty = false := by
    refine Bool.eq_false_iff.2 fun hempty => ?_
    rw [String.isEmpty_iff.1 hempty] at htype
    cases htype
  cases h with
  | new htag hkind hname =>
    obtain ⟨type, htarget, hname⟩ := Option.map_eq_some_iff.1 hname
    have hconstructed : calls.constructed? capture.node = some name := by
      unfold CallSyntax.constructed?
      rw [if_pos (List.contains_iff_mem.2 hkind), htarget, Option.bind_some, hname, nonempty?, hne]
      rfl
    unfold resolved? resolveNew?
    rw [htag, hconstructed]
    simp [hdeclared, hkept]
  -- without a keyword, methods and functions are asked first
  | call htag hnone hkind hname =>
    obtain ⟨function, htarget, hfunctionName⟩ := Option.map_eq_some_iff.1 hname
    obtain ⟨hidentifier, hname⟩ := Prod.mk.inj hfunctionName
    have hchain : chainOf (some function) = [name] := by
      rw [(Node.Spine.here function).chainOf_of_namesRoot
        (.name (by simp [nameKinds, hidentifier])), hname]
    have hparts : callParts? capture.node = some ([], name) := by
      have hnot : (capture.node.kind == "method_invocation") = false := by
        rw [calleeKinds, List.mem_cons, List.mem_singleton] at hkind
        rcases hkind with hkind | hkind <;> rw [hkind] <;> rfl
      rw [callParts?, hnot, htarget, hchain]
      rfl
    have hnone' : target? table (.ofOutline o) calls scope [] name = none := by
      have hfunctions : (KnownNames.ofOutline o).functions.contains name = false :=
        Bool.eq_false_iff.2 (mt List.contains_iff_mem.1 hfunction)
      rw [target?, howner, Option.filter_some, hmethod, hfunctions]
      rfl
    unfold resolved? resolveCall?
    rw [htag, hparts]
    simp [hne, hnone', hnone, hdeclared, hkept]

/-- In a callable of a class the class is the caller. -/
theorem caller?_of_owner {known : KnownNames} {d : Diagram} {s : Scope}
    (hcallable : s.frame.isClass = false) (howner : s.frame.owner = some owner) :
    caller? known d (some s) = some owner := by
  unfold caller? Scope.ownerOf
  rw [Option.map_some, hcallable, Option.bind_some, howner]
  rfl

end Resolving

/-! ## 3. What is drawn -/

/-- **A call that resolves is drawn**, if its caller does not depend on what is drawn already. -/
theorem Diagram.exists_append_of_mem {table : TypeTable} {known : KnownNames} {calls : CallSyntax}
    {scopes : List Scope} {capture : Capture CallTag} {caller : String} {call : ResolvedCall}
    (hcaller : ∀ d, caller? known d (Scope.around? scopes capture.node) = some caller)
    (hcall : resolved? table known calls (Scope.around? scopes capture.node) capture = some call)
    {captures : List (Capture CallTag)} (hmem : capture ∈ captures) (d : Diagram) :
    [call.interaction calls caller d.path capture,
        (call.interaction calls caller d.path capture).reply]
      <:+: (captures.foldl (addCapture table known calls scopes) d).interactions := by
  induction captures generalizing d with
  | nil => exact absurd hmem List.not_mem_nil
  | cons first rest ih =>
    rw [List.foldl_cons]
    rcases List.mem_cons.1 hmem with rfl | hmem
    · obtain ⟨-, after, -, -, hdrawn⟩ :=
        exists_drawPairs table known calls scopes rest (d.addCapture table known calls scopes capture)
      rw [hdrawn, addCapture_of_call (hcaller d) hcall, interactions_addCall]
      exact ⟨d.interactions, after, rfl⟩
    · have hdrawn := ih hmem (d.addCapture table known calls scopes first)
      rw [path_addCapture] at hdrawn
      exact hdrawn

/-- **A file constructs a class of its own**: a call in a method of a class `owner` constructs a class
that the file declares, under a capitalised name that is not that of a method or a function there. -/
structure Outline.ConstructsOwn (o : Outline) (root : Node) (calls : CallSyntax)
    (capture : Capture CallTag) (owner name : String) : Prop where
  tree : o.tree = some root
  language : CallSyntax.ofLanguage? o.language = some calls
  told : root.IsToldApart (byKind calls.tags)
  mem : capture ∈ root.captures (byKind calls.tags)
  inMethod : Scope.IsInMethodOf (byKind calls.tags) capture.site owner
  constructs : Constructs calls capture name
  declares : name ∈ o.classes.map (·.name)
  identifier : TypeName.isIdentifier name.toList = true
  capitalised : TypeName.isCapitalised name.toList = true
  noMethod : (KnownNames.ofOutline o).hasMethod owner name = false
  noFunction : name ∉ o.functions.map (·.name)

/-- **Constructor calls of classes of the file are drawn**, if no table has the name of the class: the
diagram has a call of the constructor from the one class to the other, and the return after it. -/
theorem SequenceReport.draws_of_constructsOwn {o : Outline} {root : Node} {calls : CallSyntax}
    {capture : Capture CallTag} {owner name : String}
    (h : o.ConstructsOwn root calls capture owner name)
    (hfree : name ∉ TypeName.untypedNames ++ TypeName.primitiveNames ++ TypeName.builtinNames) :
    ∃ call, o.DrawsAs capture call ∧ call.source = owner ∧ call.target = name ∧
      call.message = s!"constructor({capture.node.argumentText})" ∧
      [call, call.reply] <:+: (ofOutline o).interactions := by
  have hplain : Scope.opensScope capture = false := by
    unfold Scope.opensScope
    cases h.constructs with
    | new htag =>
      rw [htag]
      rfl
    | call htag =>
      rw [htag]
      rfl
  obtain ⟨s, haround, hcallable, howner⟩ := Scope.exists_around h.told h.mem hplain h.inMethod
  -- what variables hold plays no part: a constructor is told by its name alone
  have hresolved : resolved?
      (.ofCaptures o (.ofOutline o) calls (Scope.ofCaptures (root.captures (byKind calls.tags)))
        (root.captures (byKind calls.tags)))
      (.ofOutline o) calls
      (Scope.around? (Scope.ofCaptures (root.captures (byKind calls.tags))) capture.node) capture
      = some ⟨name, "constructor"⟩ :=
    resolved?_of_constructs h.constructs h.declares
      (TypeName.classify_of_isIdentifier h.identifier h.capitalised hfree)
      (haround ▸ howner) h.noMethod h.noFunction
  have hdrawn := Diagram.exists_append_of_mem
    (fun d => haround ▸ caller?_of_owner hcallable howner) hresolved h.mem (Diagram.ofOutline o)
  rw [(Diagram.isAt_ofOutline o).own] at hdrawn
  rw [ofOutline_of_tree h.tree h.language]
  exact ⟨_, Outline.drawsAs_interaction h.language _ owner capture, rfl, rfl, rfl, hdrawn⟩

/-! ## 4. A class and its client -/

/-- The tree of a text with a class, whose name has six letters, and a client that constructs it. -/
def clientTree (text : String) : Node :=
  let rule := (Source.ofString text).rule
  let token := (Source.ofString text).token
  rule 0 "program" none 0 58
    [rule 1 "class_declaration" none 0 15
      [token 2 "class" 0 5, rule 3 "type_identifier" (some "name") 6 12 [],
        rule 4 "class_body" (some "body") 13 15 [token 5 "\x7b" 13 14, token 6 "\x7d" 14 15]],
      rule 7 "class_declaration" none 16 57
        [token 8 "class" 16 21, rule 9 "type_identifier" (some "name") 22 28 [],
          rule 10 "class_body" (some "body") 29 57
            [token 11 "\x7b" 29 30,
              rule 12 "method_definition" none 31 55
                [rule 13 "property_identifier" (some "name") 31 35 [],
                  rule 14 "formal_parameters" (some "parameters") 35 37
                    [token 15 "(" 35 36, token 16 ")" 36 37],
                  rule 17 "statement_block" (some "body") 38 55
                    [token 18 "\x7b" 38 39,
                      rule 19 "expression_statement" none 40 53
                        [rule 20 "new_expression" none 40 52
                          [token 21 "new" 40 43, rule 22 "identifier" (some "constructor") 44 50 [],
                            rule 23 "arguments" (some "arguments") 50 52
                              [token 24 "(" 50 51, token 25 ")" 51 52]],
                          token 26 ";" 52 53],
                      token 27 "\x7d" 54 55]],
              token 28 "\x7d" 56 57]]]

/-- A client of a class whose name no table has. -/
def workerText : String :=
  "class Worker \x7b\x7d class Client \x7b load() \x7b new Worker(); \x7d \x7d\n"

/-- A client of a class with the name of a library type. -/
def recordText : String :=
  "class Record \x7b\x7d class Client \x7b load() \x7b new Record(); \x7d \x7d\n"

/-- How calls are written in these texts. -/
def clientCalls : CallSyntax :=
  CallSyntax.script ["class_declaration", "abstract_class_declaration", "class"]

/-- The outline of such a text. -/
def clientOutline (text : String) : Outline :=
  Outline.ofSoundTree .typescript "/src/a.ts" (clientTree text)

/-- **The client constructs the class**, if that is what its only calls do. -/
theorem exists_constructsOwn (text name : String)
    (htold : (clientTree text).IsToldApart (byKind clientCalls.tags))
    (hsome : ((clientTree text).found (byKind clientCalls.tags)).filter isCall ≠ [])
    (hall : ∀ c ∈ ((clientTree text).found (byKind clientCalls.tags)).filter isCall,
      Scope.IsInMethodOf (byKind clientCalls.tags) c.site "Client" ∧ c.tag = .new ∧
      c.node.kind ∈ clientCalls.newKinds ∧
      (c.node.firstField? ["constructor", "type"]).map (typeHead ·.text) = some name)
    (hdeclares : name ∈ (clientOutline text).classes.map (·.name))
    (hidentifier : TypeName.isIdentifier name.toList = true)
    (hcapitalised : TypeName.isCapitalised name.toList = true)
    (hnoMethod : (KnownNames.ofOutline (clientOutline text)).hasMethod "Client" name = false)
    (hnoFunction : name ∉ (clientOutline text).functions.map (·.name)) :
    ∃ capture, (clientOutline text).ConstructsOwn (clientTree text) clientCalls capture "Client"
      name := by
  obtain ⟨capture, hcapture⟩ := List.exists_mem_of_ne_nil _ hsome
  obtain ⟨hin, htag, hkind, hname⟩ := hall capture hcapture
  exact ⟨capture,
    { tree := rfl
      language := rfl
      told := htold
      mem := htold.perm_captures.mem_iff.2 (List.mem_of_mem_filter hcapture)
      inMethod := hin
      constructs := .new htag hkind hname
      declares := hdeclares
      identifier := hidentifier
      capitalised := hcapitalised
      noMethod := hnoMethod
      noFunction := hnoFunction }⟩

/-- The client of `Worker` is drawn. -/
theorem SequenceReport.draws_worker : ∃ capture,
    (clientOutline workerText).ConstructsOwn (clientTree workerText) clientCalls capture "Client"
      "Worker" ∧
    "Worker" ∉ TypeName.untypedNames ++ TypeName.primitiveNames ++ TypeName.builtinNames ∧
    ∃ call, (clientOutline workerText).DrawsAs capture call ∧ call.source = "Client" ∧
      call.target = "Worker" ∧ call.message = s!"constructor({capture.node.argumentText})" ∧
      [call, call.reply] <:+: (ofOutline (clientOutline workerText)).interactions := by
  obtain ⟨capture, h⟩ := exists_constructsOwn workerText "Worker"
    (by decide +kernel) (by decide +kernel) (by decide +kernel) (by decide +kernel) (by decide)
    (by decide) (by decide +kernel) (by decide +kernel)
  exact ⟨capture, h, by decide, draws_of_constructsOwn h (by decide)⟩

/-- **A class with the name of a library type is left out**: nothing is drawn of the client of `Record`,
though the file declares the class that it constructs. -/
theorem SequenceReport.drops_record :
    (∃ capture, (clientOutline recordText).ConstructsOwn (clientTree recordText) clientCalls capture
      "Client" "Record") ∧
    "Record" ∈ TypeName.builtinNames ∧
    (ofOutline (clientOutline recordText)).interactions = [] := by
  refine ⟨exists_constructsOwn recordText "Record" (by decide +kernel) (by decide +kernel)
    (by decide +kernel) (by decide +kernel) (by decide) (by decide) (by decide +kernel)
    (by decide +kernel), by decide, ?_⟩
  have hcaptures : (clientTree recordText).captures (byKind clientCalls.tags)
      = (clientTree recordText).picked (byKind clientCalls.tags) :=
    Node.captures_eq_picked (by decide +kernel)
  have hlanguage : CallSyntax.ofLanguage? (clientOutline recordText).language = some clientCalls :=
    rfl
  rw [ofOutline_of_tree rfl hlanguage, hcaptures]
  decide +kernel

end CodeAtlas
