import CodeAtlas.Proofs.Sequence.Scope
import CodeAtlas.Sequence.TypeTable
import Mathlib.Data.List.Induction

/-!
# What type tables record

An entry of a type table is there because something in the file says so: a declaration, or an
assignment that is captured before. Each step of the filling keeps what is known of all entries
(`TypeTable.Respects`), and so does the whole (`TypeTable.respects_ofCaptures`).
-/

namespace CodeAtlas

open Syntax

/-! ## 1. Declarations and assignments -/

/-- The callables that a file declares, under their keys, with their parameters. -/
def Outline.signatures (o : Outline) : List (ScopeKey × List Parameter) :=
  (o.classes.flatMap fun c =>
    (c.constructorParameters.toList.map fun ps => (.callable (some c.name) "constructor", ps)) ++
      c.methods.map fun m => (.callable (some c.name) m.name, m.parameters)) ++
  o.functions.map fun f => (.callable none f.name, f.parameters)

/-- Some parameters give a class to a name. -/
def Parameter.Gives (ps : List Parameter) (name type : String) : Prop :=
  ∃ p ∈ ps, p.name = name ∧ TypeTable.singleClass? p.type = some type

/-- A file declares a variable of a callable: as a parameter. -/
def Outline.DeclaresLocal (o : Outline) (key : ScopeKey) (name type : String) : Prop :=
  ∃ ps, (key, ps) ∈ o.signatures ∧ Parameter.Gives ps name type

/-- A file declares a member of a class: as a field, or as a parameter of the constructor that
stands for one. -/
def Outline.DeclaresMember (o : Outline) (owner name type : String) : Prop :=
  ∃ c ∈ o.classes, c.name = owner ∧
    ((∃ p ∈ c.properties, p.name = name ∧ TypeTable.singleClass? p.type = some type) ∨
      ∃ p ∈ c.constructorParameters.getD [], p.isProperty = true ∧ p.name = name ∧
        TypeTable.singleClass? p.type = some type)

/-- What is assigned: the target, the value, and the type that is written with the target. -/
structure Assignment where
  target : Option Node
  value : Option Node
  declaredType : Option String

/-- What a captured node assigns, if it is an assignment or declares a variable. -/
def Assignment.ofCapture? (capture : Capture CallTag) : Option Assignment :=
  let node := capture.node
  match capture.tag with
  | .assign =>
    some
      { target := node.field? "left"
        value := node.field? "right"
        declaredType := TypeTable.typeText? (node.field? "type") }
  | .declare =>
    some
      { target := node.field? "name"
        value := node.field? "value"
        declaredType := TypeTable.typeText? (node.field? "type") <|>
          capture.site.parent?.bind fun p => TypeTable.typeText? (p.field? "type") }
  | _ => none

theorem Assignment.ofCapture?_eq_none {capture : Capture CallTag} (hassign : capture.tag ≠ .assign)
    (hdeclare : capture.tag ≠ .declare) : ofCapture? capture = none := by
  unfold ofCapture?
  split
  · exact absurd ‹_› hassign
  · exact absurd ‹_› hdeclare
  · rfl

/-- The class that an assignment gives: the one that is written, else that of the value. -/
def Assignment.type? (a : Assignment) (table : TypeTable) (known : KnownNames) (calls : CallSyntax)
    (scope : Option Scope) : Option String :=
  match TypeTable.singleClass? a.declaredType with
  | some type => some type
  | none => a.value.bind (table.valueClass? known calls scope)

/-- An assignment is to a member of a class: by its bare name in the body of the class, or through
the object that a method runs on. -/
def Assignment.IsToMember (a : Assignment) (calls : CallSyntax) (scope : Option Scope)
    (owner name : String) : Prop :=
  (chainOf a.target = [name] ∧
      ∃ s, scope = some s ∧ s.frame.isClass = true ∧ s.frame.name = owner) ∨
    ∃ receiver ∈ calls.receivers, chainOf a.target = [receiver, name] ∧
      Scope.ownerOf scope = some owner

/-- Under which key a variable of a scope is kept. The body of a class has no variables. -/
def Scope.localKey? : Option Scope → Option ScopeKey
  | none => some .module
  | some s => if s.frame.isClass then none else some s.frame.key

namespace TypeTable

variable {table : TypeTable} {known : KnownNames} {calls : CallSyntax} {scopes : List Scope}
  {scope : Option Scope} {key : ScopeKey} {owner name type : String}

/-- A capture is recorded as what it assigns. -/
theorem addCapture_eq (table : TypeTable) (capture : Capture CallTag) :
    table.addCapture known calls scopes capture
      = match Assignment.ofCapture? capture with
        | some a =>
          table.assign known calls (Scope.around? scopes capture.node) a.target a.value
            a.declaredType
        | none => table := by
  unfold addCapture Assignment.ofCapture?
  dsimp only
  cases capture.tag <;> rfl

/-! ## 2. Tables that say what is so -/

theorem mem_of_lookup {κ : Type} [BEq κ] [LawfulBEq κ] {entries : List (κ × String)} {k : κ}
    (h : entries.lookup k = some type) : (k, type) ∈ entries := by
  obtain ⟨before, after, rfl, -⟩ := List.lookup_eq_some_iff.1 h
  exact List.mem_append_right _ List.mem_cons_self

/-- **A table respects two relations** if its variables stand in the one and its members in the
other. -/
structure Respects (table : TypeTable) (Local : ScopeKey → String → String → Prop)
    (Member : String → String → String → Prop) : Prop where
  locals : ∀ key name type, ((key, name), type) ∈ table.locals → Local key name type
  members : ∀ owner name type, ((owner, name), type) ∈ table.members → Member owner name type

variable {Local : ScopeKey → String → String → Prop} {Member : String → String → String → Prop}

namespace Respects

theorem empty : Respects .empty Local Member :=
  ⟨fun _ _ _ h => absurd h List.not_mem_nil, fun _ _ _ h => absurd h List.not_mem_nil⟩

theorem imp (h : table.Respects Local Member) {Local' : ScopeKey → String → String → Prop}
    {Member' : String → String → String → Prop}
    (hlocal : ∀ key name type, Local key name type → Local' key name type)
    (hmember : ∀ owner name type, Member owner name type → Member' owner name type) :
    table.Respects Local' Member' :=
  ⟨fun key name type hmem => hlocal key name type (h.locals key name type hmem),
    fun owner name type hmem => hmember owner name type (h.members owner name type hmem)⟩

theorem setLocal (h : table.Respects Local Member) (hnew : Local key name type) :
    (table.setLocal key name type).Respects Local Member where
  locals k n t hmem := by
    rcases List.mem_cons.1 hmem with heq | hmem
    · cases heq
      exact hnew
    · exact h.locals k n t hmem
  members := h.members

theorem addLocal (h : table.Respects Local Member) (hnew : Local key name type) :
    (table.addLocal key name type).Respects Local Member := by
  unfold TypeTable.addLocal
  split
  · exact h
  · exact h.setLocal hnew

theorem setMember (h : table.Respects Local Member) (hnew : Member owner name type) :
    (table.setMember owner name type).Respects Local Member where
  locals := h.locals
  members o n t hmem := by
    rcases List.mem_cons.1 hmem with heq | hmem
    · cases heq
      exact hnew
    · exact h.members o n t hmem

theorem local? (h : table.Respects Local Member) (hfound : table.local? key name = some type) :
    Local key name type :=
  h.locals key name type (mem_of_lookup hfound)

theorem member? (h : table.Respects Local Member) (hfound : table.member? owner name = some type) :
    Member owner name type :=
  h.members owner name type (mem_of_lookup hfound)

/-- What every step keeps is kept by all of them. -/
theorem foldl {α : Type} {step : TypeTable → α → TypeTable} (items : List α)
    (h : table.Respects Local Member)
    (hstep : ∀ table, table.Respects Local Member → ∀ a ∈ items,
      (step table a).Respects Local Member) :
    (items.foldl step table).Respects Local Member :=
  List.foldlRecOn (motive := fun table => table.Respects Local Member) items step h hstep

/-! ## 3. Declared types -/

theorem addParameter (h : table.Respects Local Member) {p : Parameter}
    (hnew : ∀ type, singleClass? p.type = some type → Local key p.name type) :
    (addParameter key table p).Respects Local Member := by
  unfold TypeTable.addParameter
  split
  · rename_i type htype
    exact h.addLocal (hnew type htype)
  · exact h

theorem addProperty (h : table.Respects Local Member) {p : Property}
    (hnew : ∀ type, singleClass? p.type = some type → Member owner p.name type) :
    (addProperty owner table p).Respects Local Member := by
  unfold TypeTable.addProperty
  split
  · rename_i type htype
    exact h.setMember (hnew type htype)
  · exact h

theorem addConstructorParameter (h : table.Respects Local Member) {p : Parameter}
    (hlocal : ∀ type, singleClass? p.type = some type →
      Local (.callable (some owner) "constructor") p.name type)
    (hmember : ∀ type, singleClass? p.type = some type → p.isProperty = true →
      Member owner p.name type) :
    (addConstructorParameter owner table p).Respects Local Member := by
  unfold TypeTable.addConstructorParameter
  split
  · rename_i type htype
    dsimp only
    split
    · rename_i hproperty
      exact (h.setMember (hmember type htype hproperty)).setLocal (hlocal type htype)
    · exact h.setLocal (hlocal type htype)
  · exact h

/-- **A class of the file adds what it declares.** -/
theorem addClass {o : Outline} {c : ClassDecl} (hc : c ∈ o.classes)
    (h : table.Respects o.DeclaresLocal o.DeclaresMember) :
    (table.addClass c).Respects o.DeclaresLocal o.DeclaresMember := by
  have hconstructor : ∀ ps, c.constructorParameters = some ps →
      (ScopeKey.callable (some c.name) "constructor", ps) ∈ o.signatures := fun ps hps =>
    List.mem_append_left _ (List.mem_flatMap.2 ⟨c, hc, List.mem_append_left _ (by simp [hps])⟩)
  have hmethod : ∀ m ∈ c.methods,
      (ScopeKey.callable (some c.name) m.name, m.parameters) ∈ o.signatures := fun m hm =>
    List.mem_append_left _ (List.mem_flatMap.2
      ⟨c, hc, List.mem_append_right _ (List.mem_map.2 ⟨m, hm, rfl⟩)⟩)
  unfold TypeTable.addClass
  refine foldl c.methods (foldl (c.constructorParameters.getD []) (foldl c.properties h ?_) ?_) ?_
  · exact fun table h p hp =>
      h.addProperty fun type htype => ⟨c, hc, rfl, Or.inl ⟨p, hp, rfl, htype⟩⟩
  · intro table h p hp
    refine h.addConstructorParameter (fun type htype => ?_) fun type htype hproperty =>
      ⟨c, hc, rfl, Or.inr ⟨p, hp, hproperty, rfl, htype⟩⟩
    cases hps : c.constructorParameters with
    | none =>
      rw [hps] at hp
      cases hp
    | some ps =>
      rw [hps] at hp
      exact ⟨ps, hconstructor ps hps, p, hp, rfl, htype⟩
  · exact fun table h m hm => foldl m.parameters h fun table h p hp =>
      h.addParameter fun type htype => ⟨m.parameters, hmethod m hm, p, hp, rfl, htype⟩

end Respects

/-- **What the declarations of a file tell is declared.** -/
theorem respects_ofOutline (o : Outline) :
    (ofOutline o).Respects o.DeclaresLocal o.DeclaresMember := by
  refine Respects.foldl o.functions (Respects.foldl o.classes .empty ?_) ?_
  · exact fun table h c hc => h.addClass hc
  · exact fun table h f hf => Respects.foldl f.parameters h fun table h p hp =>
      h.addParameter fun type htype =>
        ⟨f.parameters, List.mem_append_right _ (List.mem_map.2 ⟨f, hf, rfl⟩), p, hp, rfl, htype⟩

/-! ## 4. Assigned types -/

/-- **An assignment adds one entry at most**: a variable of its scope, or a member. -/
theorem assign_cases (table : TypeTable) (known : KnownNames) (calls : CallSyntax)
    (scope : Option Scope) (a : Assignment) :
    table.assign known calls scope a.target a.value a.declaredType = table ∨
    (∃ key name type, a.type? table known calls scope = some type ∧ chainOf a.target = [name] ∧
      Scope.localKey? scope = some key ∧
      table.assign known calls scope a.target a.value a.declaredType
        = table.setLocal key name type) ∨
    ∃ owner name type, a.type? table known calls scope = some type ∧
      a.IsToMember calls scope owner name ∧
      table.assign known calls scope a.target a.value a.declaredType
        = table.setMember owner name type := by
  unfold TypeTable.assign
  split
  · exact Or.inl rfl
  · rename_i target htarget
    rw [← htarget]
    dsimp only
    split
    · exact Or.inl rfl
    -- a bare name outside of all scopes, in a scope, and a member named through its object
    · rename_i type htype
      split
      · rename_i name hchain
        exact Or.inr (Or.inl ⟨.module, name, type, htype, hchain, rfl, rfl⟩)
      · rename_i name s hchain
        split
        · rename_i hclass
          exact Or.inr (Or.inr ⟨s.frame.name, name, type, htype,
            Or.inl ⟨hchain, s, rfl, hclass, rfl⟩, rfl⟩)
        · rename_i hcallable
          exact Or.inr (Or.inl ⟨s.frame.key, name, type, htype, hchain, if_neg hcallable, rfl⟩)
      · rename_i receiver name hchain
        split
        · rename_i owner howner
          split
          · rename_i hreceiver
            exact Or.inr (Or.inr ⟨owner, name, type, htype,
              Or.inr ⟨receiver, List.contains_iff_mem.1 hreceiver, hchain, howner⟩, rfl⟩)
          · exact Or.inl rfl
        · exact Or.inl rfl
      · exact Or.inl rfl

/-- What it adds is what it assigns. -/
theorem Respects.assign (h : table.Respects Local Member) (a : Assignment)
    (hlocal : ∀ key name type, a.type? table known calls scope = some type →
      chainOf a.target = [name] → Scope.localKey? scope = some key → Local key name type)
    (hmember : ∀ owner name type, a.type? table known calls scope = some type →
      a.IsToMember calls scope owner name → Member owner name type) :
    (table.assign known calls scope a.target a.value a.declaredType).Respects Local Member := by
  rcases assign_cases table known calls scope a with heq |
    ⟨key, name, type, htype, hchain, hkey, heq⟩ | ⟨owner, name, type, htype, hto, heq⟩
  · rw [heq]
    exact h
  · rw [heq]
    exact h.setLocal (hlocal key name type htype hchain hkey)
  · rw [heq]
    exact h.setMember (hmember owner name type htype hto)

/-! ## 5. All that is recorded -/

end TypeTable

/-- **An assignment of a file gives a class**, in the scope around it: what the declarations and the
assignments before it tell is enough to see the class of what is assigned. -/
def Assignment.Gives (o : Outline) (known : KnownNames) (calls : CallSyntax) (scopes : List Scope)
    (captures : List (Capture CallTag)) (a : Assignment) (scope : Option Scope) (type : String) :
    Prop :=
  ∃ earlier capture later, captures = earlier ++ capture :: later ∧
    ofCapture? capture = some a ∧ Scope.around? scopes capture.node = scope ∧
    a.type? (TypeTable.ofCaptures o known calls scopes earlier) known calls scope = some type

theorem Assignment.Gives.append {o : Outline} {known : KnownNames} {calls : CallSyntax}
    {scopes : List Scope} {captures : List (Capture CallTag)} {a : Assignment}
    {scope : Option Scope} {type : String} (h : a.Gives o known calls scopes captures scope type)
    (more : List (Capture CallTag)) :
    a.Gives o known calls scopes (captures ++ more) scope type := by
  obtain ⟨earlier, capture, later, rfl, hcapture, hscope, htype⟩ := h
  exact ⟨earlier, capture, later ++ more, by rw [List.append_assoc, List.cons_append], hcapture,
    hscope, htype⟩

namespace TypeTable

section Runs

variable (o : Outline) (known : KnownNames) (calls : CallSyntax) (scopes : List Scope)
  (captures : List (Capture CallTag))

/-- A variable is declared, or assigned in its scope. -/
def GivesLocal (key : ScopeKey) (name type : String) : Prop :=
  o.DeclaresLocal key name type ∨
    ∃ a scope, Assignment.Gives o known calls scopes captures a scope type ∧
      chainOf a.target = [name] ∧ Scope.localKey? scope = some key

/-- A member is declared, or assigned in its class. -/
def GivesMember (owner name type : String) : Prop :=
  o.DeclaresMember owner name type ∨
    ∃ a scope, Assignment.Gives o known calls scopes captures a scope type ∧
      a.IsToMember calls scope owner name

/-- **Whatever is recorded was declared or assigned**: every capture leaves that so. -/
theorem respects_ofCaptures : (ofCaptures o known calls scopes captures).Respects
    (GivesLocal o known calls scopes captures) (GivesMember o known calls scopes captures) := by
  -- from the last capture back, since what it records rests on the table of all that come before
  induction captures using List.reverseRecOn with
  | nil => exact (respects_ofOutline o).imp (fun _ _ _ => Or.inl) fun _ _ _ => Or.inl
  | append_singleton earlier capture ih =>
    have hearlier : (ofCaptures o known calls scopes earlier).Respects
        (GivesLocal o known calls scopes (earlier ++ [capture]))
        (GivesMember o known calls scopes (earlier ++ [capture])) :=
      ih.imp
        (fun _ _ _ h => h.imp_right fun ⟨a, scope, hgives, h⟩ => ⟨a, scope, hgives.append _, h⟩)
        fun _ _ _ h => h.imp_right fun ⟨a, scope, hgives, h⟩ => ⟨a, scope, hgives.append _, h⟩
    have hrun : ofCaptures o known calls scopes (earlier ++ [capture])
        = addCapture known calls scopes (ofCaptures o known calls scopes earlier) capture := by
      rw [ofCaptures, List.foldl_append]
      rfl
    rw [hrun, addCapture_eq]
    split
    · rename_i a ha
      have hgives : ∀ type, a.type? (ofCaptures o known calls scopes earlier) known calls
          (Scope.around? scopes capture.node) = some type →
          a.Gives o known calls scopes (earlier ++ [capture])
            (Scope.around? scopes capture.node) type := fun type htype =>
        ⟨earlier, capture, [], rfl, ha, rfl, htype⟩
      exact hearlier.assign a
        (fun key name type htype hchain hkey =>
          Or.inr ⟨a, _, hgives type htype, hchain, hkey⟩)
        fun owner name type htype hmember => Or.inr ⟨a, _, hgives type htype, hmember⟩
    · exact hearlier

end Runs

end TypeTable

end CodeAtlas
