import CodeAtlas.Proofs.Sequence.Origin
import CodeAtlas.Proofs.Sequence.Participants
import CodeAtlas.Proofs.Syntax.Chain

/-!
# Parameters that hide outer variables

A call on a name looks the name up from the innermost callable outwards, so a record of that callable
hides what the callables further out and the module have under the name. Nothing that is recorded is
lost again (`TypeTable.Records`), and the parameters that a file declares with a class are recorded:
these do hide (`Outline.hides_of_declares`). A parameter without a class leaves no record, nor does
any parameter of a callable that the outline of the file does not list, such as a function value
inside a method. A call on such a parameter goes to the class of an outer variable of its name
(`Outline.takes_outer_handler`).
-/

namespace CodeAtlas

open Syntax

namespace TypeTable

variable {table : TypeTable} {known : KnownNames} {calls : CallSyntax} {scopes : List Scope}
  {scope : Option Scope} {key otherKey : ScopeKey} {owner name otherName type : String}

/-! ## 1. Records stay -/

/-- A table has a record of a variable. -/
def Records (table : TypeTable) (key : ScopeKey) (name : String) : Prop :=
  ∃ type, table.local? key name = some type

theorem local?_setLocal : (table.setLocal otherKey otherName type).local? key name
    = if (key, name) = (otherKey, otherName) then some type else table.local? key name := by
  rw [local?, setLocal, List.lookup_cons]
  split
  · rename_i heq
    rw [if_pos (eq_of_beq heq)]
  · rename_i hne
    rw [if_neg (ne_of_beq_false hne)]
    rfl

theorem records_setLocal : (table.setLocal key name type).Records key name :=
  ⟨type, by rw [local?_setLocal, if_pos rfl]⟩

theorem records_addLocal : (table.addLocal key name type).Records key name := by
  unfold addLocal
  split
  · rename_i hrecorded
    exact Option.isSome_iff_exists.1 hrecorded
  · exact records_setLocal

theorem records_addParameter {p : Parameter} (h : singleClass? p.type = some type) :
    (addParameter key table p).Records key p.name := by
  rw [addParameter, h]
  exact records_addLocal

theorem records_addConstructorParameter {p : Parameter} (h : singleClass? p.type = some type) :
    (addConstructorParameter owner table p).Records (.callable (some owner) "constructor") p.name := by
  rw [addConstructorParameter, h]
  exact records_setLocal

namespace Records

theorem setLocal (h : table.Records key name) :
    (table.setLocal otherKey otherName type).Records key name := by
  obtain ⟨recorded, hrecorded⟩ := h
  rw [Records, local?_setLocal]
  split
  · exact ⟨type, rfl⟩
  · exact ⟨recorded, hrecorded⟩

theorem addLocal (h : table.Records key name) :
    (table.addLocal otherKey otherName type).Records key name := by
  unfold TypeTable.addLocal
  split
  · exact h
  · exact h.setLocal

theorem addProperty (h : table.Records key name) (p : Property) :
    (addProperty owner table p).Records key name := by
  unfold TypeTable.addProperty
  split
  · exact h
  · exact h

theorem addParameter (h : table.Records key name) (p : Parameter) :
    (addParameter otherKey table p).Records key name := by
  unfold TypeTable.addParameter
  split
  · exact h.addLocal
  · exact h

theorem addConstructorParameter (h : table.Records key name) (p : Parameter) :
    (addConstructorParameter owner table p).Records key name := by
  unfold TypeTable.addConstructorParameter
  split
  · dsimp only
    split
    · exact setLocal h
    · exact h.setLocal
  · exact h

/-- What every step keeps is kept by all of them. -/
theorem foldl {α : Type} {step : TypeTable → α → TypeTable} (items : List α)
    (h : table.Records key name)
    (hstep : ∀ table, table.Records key name → ∀ a, (step table a).Records key name) :
    (items.foldl step table).Records key name :=
  List.foldlRecOn (motive := fun table => table.Records key name) items step h
    fun table h a _ => hstep table h a

/-- What one step records is recorded after all of them. -/
theorem foldl_of_mem {α : Type} {step : TypeTable → α → TypeTable} {items : List α} {a : α}
    (ha : a ∈ items) (hrecords : ∀ table, (step table a).Records key name)
    (hstep : ∀ table, table.Records key name → ∀ a, (step table a).Records key name) :
    (items.foldl step table).Records key name := by
  obtain ⟨before, after, rfl⟩ := List.append_of_mem ha
  rw [List.foldl_append, List.foldl_cons]
  exact foldl after (hrecords _) hstep

theorem addClass (h : table.Records key name) (c : ClassDecl) :
    (table.addClass c).Records key name := by
  unfold TypeTable.addClass
  have hproperties : (c.properties.foldl (TypeTable.addProperty c.name) table).Records key name :=
    foldl c.properties h fun _ h => h.addProperty
  have hconstructor : ((c.constructorParameters.getD []).foldl
      (TypeTable.addConstructorParameter c.name)
      (c.properties.foldl (TypeTable.addProperty c.name) table)).Records key name :=
    foldl (c.constructorParameters.getD []) hproperties fun _ h => h.addConstructorParameter
  exact foldl c.methods hconstructor fun _ h m => foldl m.parameters h fun _ h => h.addParameter

theorem addFunction (h : table.Records key name) (f : FunctionDecl) :
    (table.addFunction f).Records key name :=
  foldl f.parameters h fun _ h => h.addParameter

theorem addCapture (h : table.Records key name) (capture : Capture CallTag) :
    (table.addCapture known calls scopes capture).Records key name := by
  rw [addCapture_eq]
  split
  · rename_i a ha
    rcases assign_cases table known calls (Scope.around? scopes capture.node) a with heq |
      ⟨_, _, _, -, -, -, heq⟩ | ⟨_, _, _, -, -, heq⟩
    · rw [heq]
      exact h
    · rw [heq]
      exact h.setLocal
    · rw [heq]
      exact h
  · exact h

end Records

/-- **A class records its parameters that have a class**, those of the constructor and of methods. -/
theorem records_addClass {c : ClassDecl} {ps : List Parameter}
    (hps : (key, ps) ∈ (c.constructorParameters.toList.map fun ps =>
        (ScopeKey.callable (some c.name) "constructor", ps)) ++
      c.methods.map fun m => (ScopeKey.callable (some c.name) m.name, m.parameters))
    (h : Parameter.Gives ps name type) : (table.addClass c).Records key name := by
  obtain ⟨p, hp, rfl, htype⟩ := h
  unfold addClass
  rcases List.mem_append.1 hps with hps | hps
  · obtain ⟨listed, hlisted, heq⟩ := List.mem_map.1 hps
    obtain ⟨rfl, rfl⟩ := Prod.mk.inj heq
    refine Records.foldl c.methods ?_ fun _ h m =>
      Records.foldl m.parameters h fun _ h => h.addParameter
    rw [Option.mem_toList.1 hlisted]
    exact Records.foldl_of_mem hp (fun _ => records_addConstructorParameter htype)
      fun _ h => h.addConstructorParameter
  · obtain ⟨m, hm, heq⟩ := List.mem_map.1 hps
    obtain ⟨rfl, rfl⟩ := Prod.mk.inj heq
    exact Records.foldl_of_mem hm
      (fun _ => Records.foldl_of_mem hp (fun _ => records_addParameter htype) fun _ h => h.addParameter)
      fun _ h m => Records.foldl m.parameters h fun _ h => h.addParameter

theorem records_addFunction {f : FunctionDecl} (h : Parameter.Gives f.parameters name type) :
    (table.addFunction f).Records (.callable none f.name) name := by
  obtain ⟨p, hp, rfl, htype⟩ := h
  exact Records.foldl_of_mem hp (fun _ => records_addParameter htype) fun _ h => h.addParameter

/-- **Every parameter that a file declares with a class is recorded.** -/
theorem records_ofOutline {o : Outline} (h : o.DeclaresLocal key name type) :
    (ofOutline o).Records key name := by
  obtain ⟨ps, hps, hgives⟩ := h
  unfold ofOutline
  rcases List.mem_append.1 hps with hps | hps
  · obtain ⟨c, hc, hps⟩ := List.mem_flatMap.1 hps
    exact Records.foldl o.functions
      (Records.foldl_of_mem hc (fun _ => records_addClass hps hgives) fun _ h => h.addClass)
      fun _ h => h.addFunction
  · obtain ⟨f, hf, heq⟩ := List.mem_map.1 hps
    obtain ⟨rfl, rfl⟩ := Prod.mk.inj heq
    exact Records.foldl_of_mem hf (fun _ => records_addFunction hgives) fun _ h => h.addFunction

end TypeTable

/-- **So it is after all assignments.** -/
theorem Outline.records_typeTable {o : Outline} {key : ScopeKey} {name type : String}
    (h : o.DeclaresLocal key name type) : o.typeTable.Records key name := by
  unfold typeTable
  split
  · exact TypeTable.Records.foldl _ (TypeTable.records_ofOutline h) fun _ h => h.addCapture
  · exact TypeTable.records_ofOutline h

/-! ## 2. Outer variables -/

/-- The callables around a piece of code, from the inside out. -/
def Scope.callablesOf (scope : Option Scope) : List Frame :=
  (chainOf scope).filter (!·.isClass)

/-- The keys of the module and of the callables around the innermost one. -/
def Scope.outerKeys (scope : Option Scope) : List ScopeKey :=
  .module :: (callablesOf scope).tail.map (·.key)

/-- **Two tables agree but for one name under some keys.** -/
structure TypeTable.AgreesBut (table other : TypeTable) (keys : List ScopeKey) (name : String) :
    Prop where
  member? : ∀ owner member, other.member? owner member = table.member? owner member
  local? : ∀ key otherName, (otherName = name → key ∉ keys) →
    other.local? key otherName = table.local? key otherName

/-- **A call ignores the outer variables of a name**: it goes to the same target whatever is recorded
for that name in the module and in the callables around the innermost one. -/
def TypeTable.IgnoresOuter (table : TypeTable) (known : KnownNames) (calls : CallSyntax)
    (scope : Option Scope) (node : Node) (name : String) : Prop :=
  ∀ other, table.AgreesBut other (Scope.outerKeys scope) name →
    resolveCall? other known calls scope node = resolveCall? table known calls scope node

section Agreement

variable {table other : TypeTable} {known : KnownNames} {calls : CallSyntax} {scope : Option Scope}
  {node : Node} {keys : List ScopeKey} {first name type method : String} {rest : List String}
  {f : Frame}

/-- Members lead to the same class in tables that agree on members. -/
theorem TypeTable.AgreesBut.followMembers (h : table.AgreesBut other keys name) (owner : String)
    (segments : List String) :
    followMembers other known owner segments = followMembers table known owner segments := by
  induction segments generalizing owner with
  | nil => rfl
  | cons segment rest ih =>
    simp only [CodeAtlas.followMembers, h.member?, ih]

/-- **The tables matter only for the name that a call starts at**, where they agree on members. -/
theorem TypeTable.AgreesBut.resolveCall? (h : table.AgreesBut other keys name)
    (hcall : callParts? node = some (first :: rest, method))
    (hlookup : calls.receivers.contains first = false →
      other.lookup? known calls scope first = table.lookup? known calls scope first) :
    resolveCall? other known calls scope node = resolveCall? table known calls scope node := by
  have howner : (if calls.receivers.contains first then Scope.ownerOf scope
        else other.lookup? known calls scope first)
      = if calls.receivers.contains first then Scope.ownerOf scope
        else table.lookup? known calls scope first := by
    split
    · rfl
    · rename_i hreceiver
      exact hlookup (Bool.eq_false_iff.2 hreceiver)
  have htarget : target? other known calls scope (first :: rest) method
      = target? table known calls scope (first :: rest) method := by
    rw [target?, target?, howner]
    simp only [h.followMembers]
  simp only [CodeAtlas.resolveCall?, hcall, htarget]

/-- What the innermost callable records is found. -/
theorem TypeTable.lookup?_of_head? (hinner : (Scope.callablesOf scope).head? = some f)
    (hrecorded : table.local? f.key name = some type) :
    table.lookup? known calls scope name = some type := by
  obtain ⟨outer, houter⟩ := List.head?_eq_some_iff.1 hinner
  have hfound : ((Scope.chainOf scope).filter (!·.isClass)).findSome?
      (fun g => table.local? g.key name) = some type := by
    rw [← Scope.callablesOf, houter, List.findSome?_cons, hrecorded]
  unfold lookup?
  dsimp only
  rw [hfound]
  rfl

/-- The object that a method runs on is no variable. -/
theorem TypeTable.ignoresOuter_of_receiver (hcall : callParts? node = some (first :: rest, method))
    (hreceiver : first ∈ calls.receivers) :
    table.IgnoresOuter known calls scope node first := fun _ h =>
  h.resolveCall? hcall fun hnot =>
    absurd (List.contains_iff_mem.2 hreceiver) (Bool.eq_false_iff.1 hnot)

/-- **A record of the innermost callable hides the outer variables**, if the callable keeps it apart
from them. -/
theorem TypeTable.ignoresOuter_of_records (hcall : callParts? node = some (first :: rest, method))
    (hinner : (Scope.callablesOf scope).head? = some f) (hrecords : table.Records f.key first)
    (hapart : f.key ∉ Scope.outerKeys scope) :
    table.IgnoresOuter known calls scope node first := by
  intro other h
  obtain ⟨type, htype⟩ := hrecords
  have hother : other.local? f.key first = some type := by
    rw [h.local? f.key first fun _ => hapart, htype]
  refine h.resolveCall? hcall fun _ => ?_
  rw [lookup?_of_head? hinner htype, lookup?_of_head? hinner hother]

end Agreement

/-! ## 3. Parameters of the innermost callable -/

/-- **The innermost callable around a node has a parameter with a class**, and no callable further out
has its key. -/
structure Outline.DeclaresInside (o : Outline) (node : Node) (f : Frame) (name : String) : Prop where
  inner : (Scope.callablesOf (Scope.around? o.scopes node)).head? = some f
  declared : ∃ type, o.DeclaresLocal f.key name type
  apart : ∀ g ∈ (Scope.callablesOf (Scope.around? o.scopes node)).tail, g.key ≠ f.key

/-- **A callable hides the outer variables of a name from a call**: the name has a class that a
parameter or an assignment of such a callable gave it, and what is recorded outside makes no
difference. -/
structure Outline.Hides (o : Outline) (calls : CallSyntax) (node : Node) (f : Frame) (name : String) :
    Prop where
  found : ∃ type,
    o.typeTable.lookup? (.ofOutline o) calls (Scope.around? o.scopes node) name = some type ∧
      TypeTable.GivesLocal o (.ofOutline o) calls o.scopes o.callCaptures f.key name type
  ignores : o.typeTable.IgnoresOuter (.ofOutline o) calls (Scope.around? o.scopes node) node name

/-- **Declared parameters with a class hide outer variables**: a call on such a parameter of the
innermost callable around it never goes by the class of a variable of the same name outside. -/
theorem Outline.hides_of_declares {o : Outline} {calls : CallSyntax} {node : Node} {f : Frame}
    {name method : String} {rest : List String}
    (hcalls : CallSyntax.ofLanguage? o.language = some calls)
    (hcall : callParts? node = some (name :: rest, method)) (h : o.DeclaresInside node f name) :
    o.Hides calls node f name := by
  obtain ⟨declaredType, hdeclared⟩ := h.declared
  have hrecords := records_typeTable hdeclared
  have hapart : f.key ∉ Scope.outerKeys (Scope.around? o.scopes node) := by
    rw [Scope.outerKeys, List.mem_cons, List.mem_map, not_or]
    refine ⟨?_, fun ⟨g, hg, heq⟩ => h.apart g hg heq⟩
    obtain ⟨ps, hps, -⟩ := hdeclared
    exact ne_module_of_mem_signatures hps
  obtain ⟨type, htype⟩ := id hrecords
  have hgives : TypeTable.GivesLocal o (.ofOutline o) calls o.scopes o.callCaptures f.key name
      type := by
    rw [typeTable, hcalls] at htype
    exact (TypeTable.respects_ofCaptures o _ calls o.scopes o.callCaptures).local? htype
  exact
    { found := ⟨type, TypeTable.lookup?_of_head? h.inner htype, hgives⟩
      ignores := TypeTable.ignoresOuter_of_records hcall h.inner hrecords hapart }

/-! ## 4. A function value -/

/-- A method that calls its parameter, and returns a function with a parameter of the same name. -/
def handlerText : String :=
  "class A \x7b go(u: User) \x7b u.save(); return u => u.save(); \x7d \x7d\n"

/-- What `save` is called on in `handlerText`. -/
def handlerObject (id start : Nat) : Node :=
  (Source.ofString handlerText).rule id "identifier" (some "object") start (start + 1) []

/-- What is called in `handlerText`. -/
def handlerMember (id start : Nat) : Node :=
  let rule := (Source.ofString handlerText).rule
  let token := (Source.ofString handlerText).token
  rule id "member_expression" (some "function") start (start + 6)
    [handlerObject (id + 1) start, token (id + 2) "." (start + 1) (start + 2),
      rule (id + 3) "property_identifier" (some "property") (start + 2) (start + 6) []]

/-- A call of `save` in `handlerText`. -/
def handlerCall (id : Nat) (field : Option String) (start : Nat) : Node :=
  let rule := (Source.ofString handlerText).rule
  let token := (Source.ofString handlerText).token
  rule id "call_expression" field start (start + 8)
    [handlerMember (id + 1) start,
      rule (id + 5) "arguments" (some "arguments") (start + 6) (start + 8)
        [token (id + 6) "(" (start + 6) (start + 7), token (id + 7) ")" (start + 7) (start + 8)]]

/-- The chain of a call in `handlerText` is that of its texts. -/
theorem callParts?_handlerCall {id start : Nat} {field : Option String}
    (hobject : (handlerObject (id + 2) start).text = "u")
    (hmember : stripPrivateMark (Node.textOf ((handlerMember (id + 1) start).firstField?
      ["property", "field", "attribute"])) = "save") :
    callParts? (handlerCall id field start) = some (["u"], "save") := by
  have hfunction : (handlerCall id field start).field? "function"
      = some (handlerMember (id + 1) start) := rfl
  have hchain : chainOf (some (handlerMember (id + 1) start)) = ["u", "save"] := by
    have hspine : Node.Spine (handlerMember (id + 1) start) (handlerObject (id + 2) start)
        [stripPrivateMark (Node.textOf ((handlerMember (id + 1) start).firstField?
          ["property", "field", "attribute"]))] :=
      .member List.mem_cons_self rfl rfl (.here _)
    rw [hspine.chainOf_of_namesRoot (.name List.mem_cons_self), hmember, hobject]
  have hkind : ((handlerCall id field start).kind == "method_invocation") = false := rfl
  rw [callParts?, hkind, hfunction, hchain]
  rfl

/-- The function that the method of `handlerText` returns. -/
def handlerFunction : Node :=
  let rule := (Source.ofString handlerText).rule
  let token := (Source.ofString handlerText).token
  rule 30 "arrow_function" none 41 54
    [rule 31 "identifier" (some "parameter") 41 42 [], token 32 "=>" 43 45,
      handlerCall 33 (some "body") 46]

/-- The tree of `handlerText`. -/
def handlerTree : Node :=
  let rule := (Source.ofString handlerText).rule
  let token := (Source.ofString handlerText).token
  rule 0 "program" none 0 60
    [rule 1 "class_declaration" none 0 59
      [token 2 "class" 0 5, rule 3 "type_identifier" (some "name") 6 7 [],
        rule 4 "class_body" (some "body") 8 59
          [token 5 "\x7b" 8 9,
            rule 6 "method_definition" none 10 57
              [rule 7 "property_identifier" (some "name") 10 12 [],
                rule 8 "formal_parameters" (some "parameters") 12 21
                  [token 9 "(" 12 13,
                    rule 10 "required_parameter" none 13 20
                      [rule 11 "identifier" (some "pattern") 13 14 [],
                        rule 12 "type_annotation" (some "type") 14 20
                          [token 13 ":" 14 15, rule 14 "type_identifier" none 16 20 []]],
                    token 15 ")" 20 21],
                rule 16 "statement_block" (some "body") 22 57
                  [token 17 "\x7b" 22 23,
                    rule 18 "expression_statement" none 24 33
                      [handlerCall 19 none 24, token 27 ";" 32 33],
                    rule 28 "return_statement" none 34 55
                      [token 29 "return" 34 40, handlerFunction, token 41 ";" 54 55],
                    token 42 "\x7d" 56 57]],
            token 43 "\x7d" 58 59]]]

/-- What `handlerText` declares. -/
def handlerOutline : Outline :=
  Outline.ofSoundTree .typescript "/src/a.ts" handlerTree

theorem callCaptures_handlerOutline :
    handlerOutline.callCaptures = handlerTree.picked (byKind accessorCalls.tags) :=
  Node.captures_eq_picked (by decide +kernel)

theorem scopes_handlerOutline : handlerOutline.scopes
    = Scope.ofCaptures (handlerTree.picked (byKind accessorCalls.tags)) := by
  rw [Outline.scopes_eq, callCaptures_handlerOutline]

/-- The only type that `handlerText` tells is that of the parameter of the method. -/
theorem typeTable_handlerOutline :
    handlerOutline.typeTable = ⟨[], [((.callable (some "A") "go", "u"), "User")]⟩ := by
  have htable : handlerOutline.typeTable
      = .ofCaptures handlerOutline (.ofOutline handlerOutline) accessorCalls handlerOutline.scopes
          handlerOutline.callCaptures := rfl
  have hmembers : handlerOutline.typeTable.members = [] := by
    rw [htable, scopes_handlerOutline, callCaptures_handlerOutline]
    decide +kernel
  have hlocals : handlerOutline.typeTable.locals
      = [((.callable (some "A") "go", "u"), "User")] := by
    rw [htable, scopes_handlerOutline, callCaptures_handlerOutline]
    decide +kernel
  exact congrArg₂ TypeTable.mk hmembers hlocals

/-- The method hides outer variables from the call on its own parameter. -/
theorem Outline.hides_handlerCall :
    CallSyntax.ofLanguage? handlerOutline.language = some accessorCalls ∧
    callParts? (handlerCall 19 none 24) = some (["u"], "save") ∧
    ∃ f, handlerOutline.DeclaresInside (handlerCall 19 none 24) f "u" ∧
      handlerOutline.Hides accessorCalls (handlerCall 19 none 24) f "u" := by
  have hcalls : CallSyntax.ofLanguage? handlerOutline.language = some accessorCalls := rfl
  have hcall : callParts? (handlerCall 19 none 24) = some (["u"], "save") :=
    callParts?_handlerCall (by decide +kernel) (by decide +kernel)
  have hinner : Scope.callablesOf (Scope.around? handlerOutline.scopes (handlerCall 19 none 24))
      = [⟨10, 57, "go", false, .callable (some "A") "go", some "A"⟩] := by
    rw [scopes_handlerOutline]
    decide +kernel
  have hdeclared : ∃ s ∈ handlerOutline.signatures, s.1 = .callable (some "A") "go" ∧
      ∃ p ∈ s.2, p.name = "u" ∧ TypeTable.singleClass? p.type = some "User" := by
    decide +kernel
  obtain ⟨⟨key, ps⟩, hsignature, rfl, hgives⟩ := hdeclared
  have hdeclares : handlerOutline.DeclaresInside (handlerCall 19 none 24)
      ⟨10, 57, "go", false, .callable (some "A") "go", some "A"⟩ "u" :=
    { inner := by rw [hinner]; rfl
      declared := ⟨"User", ps, hsignature, hgives⟩
      apart := by rw [hinner]; exact fun g hg => absurd hg List.not_mem_nil }
  exact ⟨hcalls, hcall, _, hdeclares, hides_of_declares hcalls hcall hdeclares⟩

/-- **A call on the parameter of a function value takes the class of an outer variable**: the
innermost callable around the second call is the returned function, its parameter is named like that
of the method, and nothing is assigned. The call goes to the class of the parameter of the method, and
to nothing if that is not recorded. -/
theorem Outline.takes_outer_handler :
    callParts? (handlerCall 33 (some "body") 46) = some (["u"], "save") ∧
    (Scope.callablesOf (Scope.around? handlerOutline.scopes (handlerCall 33 (some "body") 46))).map
        (·.key) = [.span handlerFunction.start handlerFunction.stop, .callable (some "A") "go"] ∧
    (handlerFunction.field? "parameter").map (·.text) = some "u" ∧
    (∀ capture ∈ handlerOutline.callCaptures, Assignment.ofCapture? capture = none) ∧
    (resolveCall? handlerOutline.typeTable (.ofOutline handlerOutline) accessorCalls
        (Scope.around? handlerOutline.scopes (handlerCall 33 (some "body") 46))
        (handlerCall 33 (some "body") 46)).map (·.target) = some "User" ∧
    ¬ handlerOutline.typeTable.IgnoresOuter (.ofOutline handlerOutline) accessorCalls
        (Scope.around? handlerOutline.scopes (handlerCall 33 (some "body") 46))
        (handlerCall 33 (some "body") 46) "u" := by
  have hcall : callParts? (handlerCall 33 (some "body") 46) = some (["u"], "save") :=
    callParts?_handlerCall (by decide +kernel) (by decide +kernel)
  have hkeys : (Scope.callablesOf (Scope.around? handlerOutline.scopes
      (handlerCall 33 (some "body") 46))).map (·.key)
        = [.span handlerFunction.start handlerFunction.stop, .callable (some "A") "go"] := by
    rw [scopes_handlerOutline]
    decide +kernel
  have htarget : target? handlerOutline.typeTable (.ofOutline handlerOutline) accessorCalls
      (Scope.around? handlerOutline.scopes (handlerCall 33 (some "body") 46)) ["u"] "save"
        = some "User" := by
    rw [typeTable_handlerOutline, scopes_handlerOutline]
    decide +kernel
  have hnone : target? .empty (.ofOutline handlerOutline) accessorCalls
      (Scope.around? handlerOutline.scopes (handlerCall 33 (some "body") 46)) ["u"] "save"
        = none := by
    rw [scopes_handlerOutline]
    decide +kernel
  have htags : ∀ capture ∈ handlerOutline.callCaptures,
      capture.tag ≠ .assign ∧ capture.tag ≠ .declare := by
    rw [callCaptures_handlerOutline]
    decide +kernel
  refine ⟨hcall, hkeys, by decide +kernel, fun capture hmem => ?_, ?_, fun hignores => ?_⟩
  · exact Assignment.ofCapture?_eq_none (htags capture hmem).1 (htags capture hmem).2
  · simp [resolveCall?, hcall, htarget]
  · have hagrees : handlerOutline.typeTable.AgreesBut .empty
        (Scope.outerKeys (Scope.around? handlerOutline.scopes (handlerCall 33 (some "body") 46)))
        "u" := by
      rw [Scope.outerKeys, List.map_tail, hkeys, typeTable_handlerOutline]
      refine ⟨fun owner member => rfl, fun key otherName hbeside => ?_⟩
      rw [TypeTable.local?, TypeTable.local?, TypeTable.empty, List.lookup_cons]
      split
      · rename_i heq
        obtain ⟨rfl, rfl⟩ := Prod.mk.inj (eq_of_beq heq)
        exact absurd (List.mem_cons_of_mem _ List.mem_cons_self) (hbeside rfl)
      · rfl
    have hsame := hignores .empty hagrees
    simp [resolveCall?, hcall, htarget, hnone] at hsame

end CodeAtlas
