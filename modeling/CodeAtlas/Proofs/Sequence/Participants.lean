import CodeAtlas.Outline.OfTree
import CodeAtlas.Proofs.Sequence.Scope
import CodeAtlas.Sequence.Extraction
import Mathlib.Data.List.Nodup

/-!
# The participants of a diagram

No two participants have one name, and what is called is always one of them: a call adds its target
before it is drawn. Its caller is not added. It is a declared function or the module, which are
participants from the start, or the class whose scope the call lies in; that class is a participant
if the reader of the file declares it, and the readers pass over some classes that the tree has
(`SequenceReport.joins_ofOutline`).
-/

namespace CodeAtlas

open Syntax

/-! ## 1. Names of participants -/

namespace Diagram

variable {d : Diagram} {name other : String} {kind : ParticipantKind} {line : Option Int}

/-- The names of the participants. -/
def names (d : Diagram) : List String :=
  d.participants.map (·.name)

theorem has_iff : d.has name = true ↔ name ∈ d.names := by
  simp only [has, names, List.any_eq_true, List.mem_map, beq_iff_eq]

theorem names_add : (d.add name kind line).names
    = if name ∈ d.names then d.names else d.names ++ [name] := by
  rw [add]
  split
  · rename_i hhas
    rw [if_pos (has_iff.1 hhas)]
  · rename_i hhas
    rw [if_neg (mt has_iff.2 hhas), names, List.map_append]
    rfl

@[simp] theorem interactions_add : (d.add name kind line).interactions = d.interactions := by
  rw [add]
  split <;> rfl

@[simp] theorem path_add : (d.add name kind line).path = d.path := by
  rw [add]
  split <;> rfl

theorem mem_names_add : other ∈ (d.add name kind line).names ↔ other ∈ d.names ∨ other = name := by
  rw [names_add]
  split
  · rename_i hmem
    refine ⟨Or.inl, ?_⟩
    rintro (h | rfl)
    · exact h
    · exact hmem
  · rw [List.mem_append, List.mem_singleton]

/-- **Adding a participant keeps names apart.** -/
theorem nodup_names_add (h : d.names.Nodup) : (d.add name kind line).names.Nodup := by
  rw [names_add]
  split
  · exact h
  · rename_i hnew
    rw [← List.concat_eq_append]
    exact h.concat hnew

/-! ## 2. Declarations -/

section Declarations

variable {α : Type} (nameOf : α → String) (kind : ParticipantKind) (lineOf : α → Option Int)

theorem mem_names_foldl_add (items : List α) (d : Diagram) :
    other ∈ (items.foldl (fun d a => d.add (nameOf a) kind (lineOf a)) d).names ↔
      other ∈ d.names ∨ other ∈ items.map nameOf := by
  induction items generalizing d with
  | nil => simp
  | cons a items ih => rw [List.foldl_cons, ih, mem_names_add, List.map_cons, List.mem_cons, or_assoc]

/-- What all additions keep is kept by the declarations. -/
theorem foldl_add_of_invariant {P : Diagram → Prop}
    (h : ∀ d name kind line, P d → P (d.add name kind line)) (items : List α) {d : Diagram}
    (hd : P d) : P (items.foldl (fun d a => d.add (nameOf a) kind (lineOf a)) d) :=
  List.foldlRecOn items _ hd fun d hd _ _ => h d _ _ _ hd

end Declarations

variable (o : Outline)

/-- What all additions keep holds of the diagram that a file starts with. -/
theorem ofOutline_of_invariant {P : Diagram → Prop}
    (h : ∀ d name kind line, P d → P (d.add name kind line))
    (hempty : P { path := o.path, participants := [], interactions := [] }) : P (ofOutline o) := by
  have hdeclared := foldl_add_of_invariant (·.name) .function (fun f => some f.line) h o.functions
    (foldl_add_of_invariant (·.name) .cls (fun i => some i.line) h o.interfaces
      (foldl_add_of_invariant (·.name) .cls (fun c => some c.line) h o.classes hempty))
  unfold ofOutline
  dsimp only
  split
  · exact h _ _ _ _ hdeclared
  · exact hdeclared

theorem nodup_names_ofOutline : (ofOutline o).names.Nodup :=
  ofOutline_of_invariant (P := fun d => d.names.Nodup) o (fun _ _ _ _ => nodup_names_add)
    List.nodup_nil

theorem interactions_ofOutline : (ofOutline o).interactions = [] :=
  ofOutline_of_invariant (P := fun d => d.interactions = []) o
    (fun _ _ _ _ h => interactions_add.trans h) rfl

end Diagram

/-- The names of what a file declares: its classes, interfaces and functions. -/
def Outline.ownNames (o : Outline) : List String :=
  o.classes.map (·.name) ++ o.interfaces.map (·.name) ++ o.functions.map (·.name)

/-- **What a file declares takes part** from the start. -/
theorem Diagram.mem_names_ofOutline {o : Outline} {name : String} (h : name ∈ o.ownNames) :
    name ∈ (ofOutline o).names := by
  rw [Outline.ownNames, List.mem_append, List.mem_append] at h
  have hdeclared : name ∈ (o.functions.foldl
      (fun (d : Diagram) f => d.add f.name .function (some f.line))
      (o.interfaces.foldl (fun (d : Diagram) i => d.add i.name .cls (some i.line))
        (o.classes.foldl (fun (d : Diagram) c => d.add c.name .cls (some c.line))
          { path := o.path, participants := [], interactions := [] }))).names := by
    rw [mem_names_foldl_add FunctionDecl.name .function fun f => some f.line,
      mem_names_foldl_add InterfaceDecl.name .cls fun i => some i.line,
      mem_names_foldl_add ClassDecl.name .cls fun c => some c.line]
    exact h.imp_left fun h => h.imp_left Or.inr
  unfold ofOutline
  dsimp only
  split
  · exact mem_names_add.2 (Or.inl hdeclared)
  · exact hdeclared

/-! ## 3. Calls -/

namespace Interaction

/-- Who calls, also of a return. -/
def caller (i : Interaction) : String :=
  if i.kind = .return then i.target else i.source

/-- Who is called, also of a return. -/
def callee (i : Interaction) : String :=
  if i.kind = .return then i.source else i.target

theorem ends_of_mem_callAndReturn {source target message path : String} {isAsync : Bool}
    {line : Nat} {i : Interaction}
    (h : i ∈ callAndReturn source target message isAsync line path) :
    i.caller = source ∧ i.callee = target := by
  rw [callAndReturn, List.mem_cons, List.mem_singleton] at h
  rcases h with rfl | rfl
  · cases isAsync <;> exact ⟨rfl, rfl⟩
  · exact ⟨rfl, rfl⟩

end Interaction

/-- **Who runs a piece of code** is the class that it belongs to, a function of the file, or a
participant. -/
theorem caller?_spec {known : KnownNames} {d : Diagram} {scope : Option Scope} {name : String}
    (h : caller? known d scope = some name) :
    Scope.ownerOf scope = some name ∨ name ∈ known.functions ∨ name ∈ d.names := by
  unfold caller? at h
  split at h
  · cases h
  · split at h
    · rename_i owner howner
      rw [← Option.some.inj h]
      exact Or.inl howner
    · split at h
      · rename_i f hf
        rw [← Option.some.inj h]
        have hmem := List.mem_filter.1 (List.mem_of_getLast? hf)
        exact Or.inr (Or.inl (List.contains_iff_mem.1 hmem.2))
      · split at h
        · rename_i hhas
          rw [← Option.some.inj h]
          exact Or.inr (Or.inr (Diagram.has_iff.1 hhas))
        · cases h

section Capture

variable {table : TypeTable} {known : KnownNames} {calls : CallSyntax} {scopes : List Scope}
  {d : Diagram} {capture : Capture CallTag} {caller : String} {call : ResolvedCall}

theorem Diagram.addCapture_of_call
    (hcaller : caller? known d (Scope.around? scopes capture.node) = some caller)
    (hcall : resolved? table known calls (Scope.around? scopes capture.node) capture = some call) :
    d.addCapture table known calls scopes capture = d.addCall known calls caller call capture := by
  unfold addCapture
  dsimp only
  rw [hcaller, hcall]

variable (table known calls scopes d capture) in
/-- **What a captured node adds**: nothing, or the call that it resolves to, made by whoever runs the
code around it. -/
theorem Diagram.addCapture_cases : d.addCapture table known calls scopes capture = d ∨
    ∃ caller call, caller? known d (Scope.around? scopes capture.node) = some caller ∧
      resolved? table known calls (Scope.around? scopes capture.node) capture = some call ∧
      d.addCapture table known calls scopes capture = d.addCall known calls caller call capture := by
  cases hcaller : caller? known d (Scope.around? scopes capture.node) with
  | none =>
    refine Or.inl ?_
    unfold addCapture
    dsimp only
    rw [hcaller]
  | some caller =>
    cases hcall : resolved? table known calls (Scope.around? scopes capture.node) capture with
    | none =>
      refine Or.inl ?_
      unfold addCapture
      dsimp only
      rw [hcaller, hcall]
    | some call => exact Or.inr ⟨caller, call, rfl, rfl, addCapture_of_call hcaller hcall⟩

/-- A call and its return come behind what is drawn already. -/
theorem Diagram.mem_interactions_addCall {i : Interaction}
    (h : i ∈ (d.addCall known calls caller call capture).interactions) :
    i ∈ d.interactions ∨ ∃ isAsync, i ∈ Interaction.callAndReturn caller call.target
      s!"{call.method}({capture.node.argumentText})" isAsync capture.node.line d.path := by
  rcases List.mem_append.1 h with hmem | hmem
  · rw [interactions_add] at hmem
    exact Or.inl hmem
  · rw [path_add] at hmem
    exact Or.inr ⟨_, hmem⟩

end Capture

/-- **A diagram joins participants**: their names are apart, those it started with are among them,
and every interaction runs between two of them, but for callers that are strays. -/
structure Diagram.Joins (d start : Diagram) (IsStray : String → Prop) : Prop where
  nodup_names : d.names.Nodup
  subset_names : start.names ⊆ d.names
  callee_mem : ∀ i ∈ d.interactions, i.callee ∈ d.names
  caller_mem : ∀ i ∈ d.interactions, i.caller ∈ d.names ∨ IsStray i.caller

namespace Diagram.Joins

variable {d start : Diagram} {IsStray : String → Prop} {known : KnownNames} {calls : CallSyntax}

/-- **One call keeps that**, whoever makes it: its target has become a participant. -/
theorem addCall (h : d.Joins start IsStray) {caller : String}
    (hcaller : caller ∈ d.names ∨ IsStray caller) (call : ResolvedCall)
    (capture : Capture CallTag) :
    (d.addCall known calls caller call capture).Joins start IsStray := by
  have hkept : ∀ name ∈ d.names, name ∈ (d.addCall known calls caller call capture).names :=
    fun name hname => mem_names_add.2 (Or.inl hname)
  have htarget : call.target ∈ (d.addCall known calls caller call capture).names :=
    mem_names_add.2 (Or.inr rfl)
  have hends : ∀ i ∈ (d.addCall known calls caller call capture).interactions,
      i ∈ d.interactions ∨ i.caller = caller ∧ i.callee = call.target := by
    intro i hi
    rcases mem_interactions_addCall hi with hi | ⟨isAsync, hi⟩
    · exact Or.inl hi
    · exact Or.inr (Interaction.ends_of_mem_callAndReturn hi)
  refine ⟨nodup_names_add h.nodup_names, fun name hname => hkept name (h.subset_names hname),
    fun i hi => ?_, fun i hi => ?_⟩
  · rcases hends i hi with hi | ⟨-, hcallee⟩
    · exact hkept _ (h.callee_mem i hi)
    · rw [hcallee]
      exact htarget
  · rcases hends i hi with hi | ⟨hsource, -⟩
    · exact (h.caller_mem i hi).imp_left (hkept _)
    · rw [hsource]
      exact hcaller.imp_left (hkept _)

/-- **So does whatever is captured**, if a class around it is a participant or a stray. -/
theorem addCapture (h : d.Joins start IsStray) {table : TypeTable} {scopes : List Scope}
    {capture : Capture CallTag} (hfunctions : ∀ name ∈ known.functions, name ∈ start.names)
    (howner : ∀ name, Scope.ownerOf (Scope.around? scopes capture.node) = some name →
      name ∈ start.names ∨ IsStray name) :
    (d.addCapture table known calls scopes capture).Joins start IsStray := by
  rcases addCapture_cases table known calls scopes d capture with
    hsame | ⟨caller, call, hcaller, -, hadded⟩
  · rw [hsame]
    exact h
  · rw [hadded]
    refine h.addCall ?_ call capture
    rcases caller?_spec hcaller with hname | hname | hname
    · exact (howner caller hname).imp_left fun hmem => h.subset_names hmem
    · exact Or.inl (h.subset_names (hfunctions caller hname))
    · exact Or.inl hname

end Diagram.Joins

/-! ## 4. Files -/

/-- The scopes of a file, none without a tree whose calls can be read. -/
def Outline.scopes (o : Outline) : List Scope :=
  match o.tree, CallSyntax.ofLanguage? o.language with
  | some root, some calls => Scope.ofCaptures (root.captures (byKind calls.tags))
  | _, _ => []

/-- What is captured of a file, nothing without a tree whose calls can be read. -/
def Outline.callCaptures (o : Outline) : List (Capture CallTag) :=
  match o.tree, CallSyntax.ofLanguage? o.language with
  | some root, some calls => root.captures (byKind calls.tags)
  | _, _ => []

/-- The type table of a file. -/
def Outline.typeTable (o : Outline) : TypeTable :=
  match CallSyntax.ofLanguage? o.language with
  | some calls => .ofCaptures o (.ofOutline o) calls o.scopes o.callCaptures
  | none => .ofOutline o

/-- The scopes of a file are those that its captures open. -/
theorem Outline.scopes_eq (o : Outline) : o.scopes = Scope.ofCaptures o.callCaptures := by
  unfold scopes callCaptures
  split <;> rfl

/-- Captures of a file stand in source order. -/
theorem Outline.pairwise_callCaptures (o : Outline) :
    o.callCaptures.Pairwise fun a b => a.node.start ≤ b.node.start := by
  unfold callCaptures
  split
  · exact Capture.pairwise_inOrder _
  · exact List.Pairwise.nil

/-- **The diagram of a file is drawn capture by capture**, so that what every capture keeps holds of
it. -/
theorem SequenceReport.ofOutline_of_invariant {o : Outline} {P : Diagram → Prop}
    (hstart : P (Diagram.ofOutline o))
    (hstep : ∀ calls, ∀ d, P d → ∀ capture ∈ o.callCaptures,
      P (d.addCapture o.typeTable (.ofOutline o) calls o.scopes capture)) :
    ∃ d, P d ∧ ofOutline o = ⟨d.participants, d.interactions, o.entryPoints⟩ := by
  cases htree : o.tree with
  | none =>
    refine ⟨Diagram.ofOutline o, hstart, ?_⟩
    unfold ofOutline
    rw [htree]
  | some root =>
    cases hcalls : CallSyntax.ofLanguage? o.language with
    | none =>
      refine ⟨Diagram.ofOutline o, hstart, ?_⟩
      unfold ofOutline
      rw [htree, hcalls]
    | some calls =>
      have hcaptures : o.callCaptures = root.captures (byKind calls.tags) := by
        rw [Outline.callCaptures, htree, hcalls]
      have htable : o.typeTable = .ofCaptures o (.ofOutline o) calls o.scopes o.callCaptures := by
        rw [Outline.typeTable, hcalls]
      refine ⟨o.callCaptures.foldl
        (Diagram.addCapture o.typeTable (.ofOutline o) calls o.scopes) (Diagram.ofOutline o),
        List.foldlRecOn _ _ hstart (hstep calls), ?_⟩
      rw [htable, o.scopes_eq, hcaptures]
      unfold ofOutline
      rw [htree, hcalls]

/-- A class of the tree that the file does not declare, since its reader has passed over it. -/
def Outline.IsStray (o : Outline) (name : String) : Prop :=
  (∃ s ∈ o.scopes, s.frame.isClass = true ∧ s.frame.name = name) ∧ name ∉ o.ownNames

/-- **The diagram of a file** joins participants but for its strays: every name stands for one
participant at most, every call goes to a participant, and it comes from one unless it is made in a
class that the file does not declare. -/
structure SequenceReport.Joins (report : SequenceReport) (IsStray : String → Prop) : Prop where
  nodup_names : (report.participants.map (·.name)).Nodup
  callee : ∀ i ∈ report.interactions, (report.participants.map (·.name)).count i.callee = 1
  ends : ∀ i ∈ report.interactions, ∀ name ∈ [i.source, i.target],
    (report.participants.map (·.name)).count name = 1 ∨ IsStray name

theorem Diagram.Joins.report {d start : Diagram} {IsStray : String → Prop}
    (h : d.Joins start IsStray) (entryPoints : List String) :
    SequenceReport.Joins ⟨d.participants, d.interactions, entryPoints⟩ IsStray where
  nodup_names := h.nodup_names
  callee i hi := List.count_eq_one_of_mem h.nodup_names (h.callee_mem i hi)
  ends i hi name hname := by
    have hcallee := h.callee_mem i hi
    have hcaller := h.caller_mem i hi
    have hcases : name = i.caller ∨ name = i.callee := by
      rw [List.mem_cons, List.mem_singleton] at hname
      rw [Interaction.caller, Interaction.callee]
      split
      · exact hname.symm
      · exact hname
    rcases hcases with rfl | rfl
    · exact hcaller.imp_left (List.count_eq_one_of_mem h.nodup_names)
    · exact Or.inl (List.count_eq_one_of_mem h.nodup_names hcallee)

/-- The diagram that the captures of a file are drawn into. -/
def Diagram.ofCaptures (o : Outline) (calls : CallSyntax) (captures : List (Capture CallTag)) :
    Diagram :=
  captures.foldl
    (addCapture
      (TypeTable.ofCaptures o (.ofOutline o) calls (Scope.ofCaptures captures) captures)
      (.ofOutline o) calls (Scope.ofCaptures captures))
    (ofOutline o)

theorem SequenceReport.ofOutline_of_tree {o : Outline} {root : Node} {calls : CallSyntax}
    (htree : o.tree = some root) (hcalls : CallSyntax.ofLanguage? o.language = some calls) :
    ofOutline o =
      { participants := (Diagram.ofCaptures o calls (root.captures (byKind calls.tags))).participants
        interactions := (Diagram.ofCaptures o calls (root.captures (byKind calls.tags))).interactions
        entryPoints := o.entryPoints } := by
  unfold ofOutline
  rw [htree, hcalls]
  rfl

/-- **Every interaction runs between participants**, each listed once, unless it is made in a class
that the tree of the file has and that the file does not declare: that class is its caller all the
same. -/
theorem SequenceReport.joins_ofOutline (o : Outline) : (ofOutline o).Joins o.IsStray := by
  have hstart : (Diagram.ofOutline o).Joins (Diagram.ofOutline o) o.IsStray :=
    { nodup_names := Diagram.nodup_names_ofOutline o
      subset_names := fun _ h => h
      callee_mem := by
        rw [Diagram.interactions_ofOutline]
        exact fun _ h => absurd h List.not_mem_nil
      caller_mem := by
        rw [Diagram.interactions_ofOutline]
        exact fun _ h => absurd h List.not_mem_nil }
  have hstep : ∀ calls, ∀ d : Diagram, d.Joins (Diagram.ofOutline o) o.IsStray →
      ∀ capture ∈ o.callCaptures,
        (d.addCapture o.typeTable (.ofOutline o) calls o.scopes capture).Joins
          (Diagram.ofOutline o) o.IsStray := by
    intro calls d hd capture _
    refine hd.addCapture (fun name hname => ?_) fun name howner => ?_
    · exact Diagram.mem_names_ofOutline (List.mem_append_right _ hname)
    · by_cases hown : name ∈ o.ownNames
      · exact Or.inl (Diagram.mem_names_ofOutline hown)
      · rw [o.scopes_eq] at howner
        exact Or.inr ⟨o.scopes_eq ▸ Scope.exists_class_of_ownerOf howner, hown⟩
  obtain ⟨d, hd, hreport⟩ := ofOutline_of_invariant hstart hstep
  rw [hreport]
  exact hd.report _

/-! ## 5. A class inside a method -/

/-- A class inside a method of another. -/
def innerText : String :=
  "class A \x7b m() \x7b class L \x7b n() \x7b new A(); \x7d \x7d \x7d \x7d\n"

/-- The tree of `innerText`. -/
def innerTree : Node :=
  let rule := (Source.ofString innerText).rule
  let token := (Source.ofString innerText).token
  let inner : Node :=
    rule 13 "class_declaration" none 16 44
      [token 14 "class" 16 21, rule 15 "type_identifier" (some "name") 22 23 [],
        rule 16 "class_body" (some "body") 24 44
          [token 17 "\x7b" 24 25,
            rule 18 "method_definition" none 26 42
              [rule 19 "property_identifier" (some "name") 26 27 [],
                rule 20 "formal_parameters" (some "parameters") 27 29
                  [token 21 "(" 27 28, token 22 ")" 28 29],
                rule 23 "statement_block" (some "body") 30 42
                  [token 24 "\x7b" 30 31,
                    rule 25 "expression_statement" none 32 40
                      [rule 26 "new_expression" none 32 39
                        [token 27 "new" 32 35, rule 28 "identifier" (some "constructor") 36 37 [],
                          rule 29 "arguments" (some "arguments") 37 39
                            [token 30 "(" 37 38, token 31 ")" 38 39]],
                        token 32 ";" 39 40],
                    token 33 "\x7d" 41 42]],
            token 34 "\x7d" 43 44]]
  rule 0 "program" none 0 49
    [rule 1 "class_declaration" none 0 48
      [token 2 "class" 0 5, rule 3 "type_identifier" (some "name") 6 7 [],
        rule 4 "class_body" (some "body") 8 48
          [token 5 "\x7b" 8 9,
            rule 6 "method_definition" none 10 46
              [rule 7 "property_identifier" (some "name") 10 11 [],
                rule 8 "formal_parameters" (some "parameters") 11 13
                  [token 9 "(" 11 12, token 10 ")" 12 13],
                rule 11 "statement_block" (some "body") 14 46
                  [token 12 "\x7b" 14 15, inner, token 35 "\x7d" 45 46]],
            token 36 "\x7d" 47 48]]]

/-- **A class that its reader passes over calls without taking part**: `L`, in whose method the
constructor of `A` is called, is not listed. -/
theorem SequenceReport.stray_innerTree :
    ∃ i ∈ (ofOutline (Outline.ofSoundTree .typescript "/src/a.ts" innerTree)).interactions,
      i.source = "L" ∧ i.target = "A" ∧
      ((ofOutline (Outline.ofSoundTree .typescript "/src/a.ts" innerTree)).participants.map
        (·.name)).count i.source = 0 := by
  have hcaptures : innerTree.captures (byKind (CallSyntax.script
        ["class_declaration", "abstract_class_declaration", "class"]).tags)
      = innerTree.picked (byKind (CallSyntax.script
        ["class_declaration", "abstract_class_declaration", "class"]).tags) :=
    Node.captures_eq_picked (by decide +kernel)
  rw [ofOutline_of_tree rfl rfl, hcaptures]
  decide +kernel

end CodeAtlas
