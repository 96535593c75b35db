import CodeAtlas.Proofs.Sequence.Origin
import CodeAtlas.Proofs.Sequence.Participants

/-!
# Where calls may go

Every class that a type table ever records is the name of a declared type: each way of recording
one asks for that first, or copies what the table holds already (`TypeTable.holdsDeclared_ofCaptures`).
A call is resolved through the table, to a function, to the class around it, or to a class that it
names, and what is built in, internal or a single character is left out unless the file knows it. So
a call goes to something that the file declares or imports, to a declared type, or to a class around
it (`SequenceReport.admissible_ofOutline`).
-/

namespace CodeAtlas

open Syntax

theorem TypeName.isDeclared_iff {name : String} :
    isDeclared name = true ↔ classify name = .declared :=
  beq_iff_eq

/-! ## 1. Tables of declared types -/

namespace TypeTable

variable {table : TypeTable} {known : KnownNames} {calls : CallSyntax} {scopes : List Scope}
  {scope : Option Scope} {name type : String}

/-- **Every class that a table has recorded is a declared type.** Entries are put in front of others
and none is taken away, so those that later ones hide are among them. -/
def HoldsDeclared (table : TypeTable) : Prop :=
  table.Respects (fun _ _ type => TypeName.classify type = .declared)
    fun _ _ type => TypeName.classify type = .declared

/-- A written type counts only if it is declared. -/
theorem classify_of_singleClass? {written : Option String} (h : singleClass? written = some type) :
    TypeName.classify type = .declared := by
  unfold singleClass? at h
  split at h
  · cases h
  · split at h
    · rename_i hdeclared
      rw [← Option.some.inj h]
      exact TypeName.isDeclared_iff.1 (Bool.and_eq_true_iff.1 hdeclared).2
    · cases h

/-- So does the name of a known class. -/
theorem classify_of_isClass (h : known.isClass name = true) :
    TypeName.classify name = .declared :=
  TypeName.isDeclared_iff.1 (Bool.and_eq_true_iff.1 h).1

/-- What is found for a name was recorded, or the name is that of a class. -/
theorem HoldsDeclared.classify_of_lookup? (h : table.HoldsDeclared)
    (hfound : table.lookup? known calls scope name = some type) :
    TypeName.classify type = .declared := by
  rcases lookup?_cases hfound with ⟨f, -, -, hlocal⟩ | ⟨-, owner, -, hmember⟩ | hlocal |
    ⟨hknown, rfl⟩
  · exact h.local? hlocal
  · exact h.member? hmember
  · exact h.local? hlocal
  · exact classify_of_isClass hknown

/-- The class of a value is the one that it constructs, or a copy of what the table holds. -/
theorem HoldsDeclared.classify_of_valueClass? (h : table.HoldsDeclared) {value : Node}
    (hvalue : table.valueClass? known calls scope value = some type) :
    TypeName.classify type = .declared := by
  unfold valueClass? at hvalue
  split at hvalue
  · split at hvalue
    · rename_i hdeclared
      rw [← Option.some.inj hvalue]
      exact TypeName.isDeclared_iff.1 hdeclared
    · cases hvalue
  · split at hvalue
    · exact TypeName.isDeclared_iff.1 (Option.filter_eq_some_iff.1 hvalue).2
    · split at hvalue
      · exact h.classify_of_lookup? hvalue
      · cases hvalue

theorem HoldsDeclared.classify_of_type? (h : table.HoldsDeclared) {a : Assignment}
    (htype : a.type? table known calls scope = some type) :
    TypeName.classify type = .declared := by
  unfold Assignment.type? at htype
  split at htype
  · rename_i written hwritten
    cases htype
    exact classify_of_singleClass? hwritten
  · obtain ⟨value, -, hvalue⟩ := Option.bind_eq_some_iff.1 htype
    exact h.classify_of_valueClass? hvalue

/-- **The declarations of a file give declared types only.** -/
theorem holdsDeclared_ofOutline (o : Outline) : (ofOutline o).HoldsDeclared := by
  refine (respects_ofOutline o).imp (fun key name type hlocal => ?_) fun owner name type hmember => ?_
  · obtain ⟨ps, -, p, -, -, htype⟩ := hlocal
    exact classify_of_singleClass? htype
  · obtain ⟨c, -, -, ⟨p, -, -, htype⟩ | ⟨p, -, -, -, htype⟩⟩ := hmember
    · exact classify_of_singleClass? htype
    · exact classify_of_singleClass? htype

/-- **A capture adds a declared type if anything**, though it may copy it from the table that is still
being filled. -/
theorem HoldsDeclared.addCapture (h : table.HoldsDeclared) (capture : Capture CallTag) :
    (table.addCapture known calls scopes capture).HoldsDeclared := by
  rw [addCapture_eq]
  split
  · rename_i a ha
    exact Respects.assign h a (fun _ _ _ htype _ _ => h.classify_of_type? htype)
      fun _ _ _ htype _ => h.classify_of_type? htype
  · exact h

/-- **So do all captures of a file.** -/
theorem holdsDeclared_ofCaptures (o : Outline) (known : KnownNames) (calls : CallSyntax)
    (scopes : List Scope) (captures : List (Capture CallTag)) :
    (ofCaptures o known calls scopes captures).HoldsDeclared :=
  List.foldlRecOn captures (addCapture known calls scopes) (holdsDeclared_ofOutline o)
    fun _ h capture _ => h.addCapture capture

end TypeTable

/-! ## 2. Resolving a call -/

section Resolving

variable {table : TypeTable} {known : KnownNames} {calls : CallSyntax} {scope : Option Scope}
  {node : Node} {target owner method : String} {call : ResolvedCall}

/-- A chain of members leads to where it starts or to a declared type. -/
theorem followMembers_cases (htable : table.HoldsDeclared) {segments : List String}
    (h : followMembers table known owner segments = some target) :
    target = owner ∨ TypeName.classify target = .declared := by
  induction segments generalizing owner with
  | nil => exact Or.inl (Option.some.inj h).symm
  | cons segment rest ih =>
    rw [followMembers] at h
    split at h
    · rename_i next hnext
      rcases ih h with rfl | hdeclared
      · exact Or.inr (htable.member? hnext)
      · exact Or.inr hdeclared
    · split at h
      · rename_i hknown
        rcases ih h with rfl | hdeclared
        · exact Or.inr (TypeTable.classify_of_isClass hknown)
        · exact Or.inr hdeclared
      · cases h

/-- **What may be called at all**: a function of the file, the class that the call belongs to, or a
declared type. -/
def IsCallable (known : KnownNames) (scope : Option Scope) (target : String) : Prop :=
  target ∈ known.functions ∨ Scope.ownerOf scope = some target ∨
    TypeName.classify target = .declared

/-- The chain before the method starts at the object that the method runs on, or at a name that is
looked up. -/
theorem isCallable_of_target? (htable : table.HoldsDeclared) {receivers : List String}
    (h : target? table known calls scope receivers method = some target) :
    IsCallable known scope target := by
  cases receivers with
  | nil =>
    rw [target?] at h
    split at h
    · rename_i owner howner
      rw [← Option.some.inj h]
      exact Or.inr (Or.inl (Option.filter_eq_some_iff.1 howner).1)
    · split at h
      · rename_i hfunction
        rw [← Option.some.inj h]
        exact Or.inl (List.contains_iff_mem.1 hfunction)
      · cases h
  | cons first rest =>
    obtain ⟨owner, howner, hfollow⟩ := Option.bind_eq_some_iff.1 h
    rcases followMembers_cases htable hfollow with rfl | hdeclared
    · split at howner
      · exact Or.inr (Or.inl howner)
      · exact Or.inr (Or.inr (htable.classify_of_lookup? howner))
    · exact Or.inr (Or.inr hdeclared)

theorem isCallable_of_resolveCall? (htable : table.HoldsDeclared)
    (h : resolveCall? table known calls scope node = some call) :
    IsCallable known scope call.target := by
  unfold resolveCall? at h
  split at h
  · cases h
  · split at h
    · cases h
    · split at h
      · rename_i target htarget
        cases h
        exact isCallable_of_target? htable htarget
      · split at h
        · rename_i hconstructs
          cases h
          exact Or.inr (Or.inr (TypeName.isDeclared_iff.1 (Bool.and_eq_true_iff.1 hconstructs).2))
        · cases h

theorem classify_of_resolveNew? (h : resolveNew? calls node = some call) :
    TypeName.classify call.target = .declared := by
  obtain ⟨target, htarget, rfl⟩ := Option.map_eq_some_iff.1 h
  exact TypeName.isDeclared_iff.1 (Option.filter_eq_some_iff.1 htarget).2

/-- **A call that counts** is one in the tree, goes to what may be called, and is not left out. -/
theorem resolved?_spec (htable : table.HoldsDeclared) {capture : Capture CallTag}
    (h : resolved? table known calls scope capture = some call) :
    (capture.tag = .call ∨ capture.tag = .new) ∧ IsCallable known scope call.target ∧
      isFiltered known call.target = false := by
  obtain ⟨hfound, hkept⟩ := Option.filter_eq_some_iff.1 h
  have hkept : isFiltered known call.target = false := by simpa using hkept
  split at hfound
  · rename_i htag
    exact ⟨Or.inl htag, isCallable_of_resolveCall? htable hfound, hkept⟩
  · rename_i htag
    exact ⟨Or.inr htag, Or.inr (Or.inr (classify_of_resolveNew? hfound)), hkept⟩
  · cases hfound

end Resolving

/-! ## 3. What is left out -/

/-- A file knows a name: it declares or imports it. -/
def Outline.Knows (o : Outline) (name : String) : Prop :=
  name ∈ o.ownNames ∨ ∃ i ∈ o.imports, name ∈ i.specifiers

/-- **Nothing reserves a name**: no language brings it along, it is not internal and it is more than
a single character. -/
structure IsUnreserved (name : String) : Prop where
  not_builtin : name ∉ TypeName.builtinNames
  not_primitive : name ∉ TypeName.primitiveNames
  not_global : name ∉ ["Object", "console", "Math", "JSON"]
  not_internal : name ∉ internalNames
  length_ne_one : name.length ≠ 1

/-- **What a file does not know must not be reserved.** -/
theorem isUnreserved_of_isFiltered {o : Outline} {name : String}
    (h : isFiltered (.ofOutline o) name = false) : o.Knows name ∨ IsUnreserved name := by
  unfold isFiltered at h
  split at h
  · rename_i hknown
    rw [Bool.or_eq_true, Bool.or_eq_true] at hknown
    rcases hknown with (hclass | himported) | hfunction
    · have hmem : name ∈ o.classes.map (·.name) ++ o.interfaces.map (·.name) := by
        simpa [KnownNames.declaresClass, KnownNames.ofOutline] using hclass
      exact Or.inl (Or.inl (List.mem_append_left _ hmem))
    · exact Or.inl (Or.inr (List.mem_flatMap.1 (List.contains_iff_mem.1 himported)))
    · exact Or.inl (Or.inl (List.mem_append_right _ (List.contains_iff_mem.1 hfunction)))
  · simp only [isBuiltinTarget, Bool.or_eq_false_iff] at h
    obtain ⟨⟨⟨⟨hbuiltin, hprimitive⟩, hglobal⟩, hinternal⟩, hlength⟩ := h
    exact Or.inr
      { not_builtin := fun hmem => Bool.eq_false_iff.1 hbuiltin (List.contains_iff_mem.2 hmem)
        not_primitive := fun hmem => Bool.eq_false_iff.1 hprimitive (List.contains_iff_mem.2 hmem)
        not_global := fun hmem => Bool.eq_false_iff.1 hglobal (List.contains_iff_mem.2 hmem)
        not_internal := fun hmem => Bool.eq_false_iff.1 hinternal (List.contains_iff_mem.2 hmem)
        length_ne_one := fun hone => Bool.eq_false_iff.1 hlength (beq_iff_eq.2 hone) }

/-- A declared type that nothing reserves has two characters at least. -/
theorem IsUnreserved.two_le_length {name : String} (h : IsUnreserved name)
    (htype : TypeName.classify name = .declared) : 2 ≤ name.length := by
  have hne : name.length ≠ 0 := by
    intro hzero
    rw [String.length_eq_zero_iff.1 hzero] at htype
    cases htype
  have hne_one := h.length_ne_one
  omega

/-! ## 4. Files -/

/-- **Whatever the type table of a file records is a declared type.** -/
theorem Outline.holdsDeclared_typeTable (o : Outline) : o.typeTable.HoldsDeclared := by
  unfold typeTable
  split
  · exact TypeTable.holdsDeclared_ofCaptures o _ _ _ _
  · exact TypeTable.holdsDeclared_ofOutline o

/-- **A call at a node may go to a target.** -/
inductive Outline.Admits (o : Outline) (node : Node) (target : String) : Prop where
  /-- The file declares or imports it. -/
  | known (hknown : o.Knows target)
  /-- It is a declared type, and nothing reserves its name. -/
  | type (htype : TypeName.classify target = .declared) (hlength : 2 ≤ target.length)
      (hfree : IsUnreserved target)
  /-- It is a class around the call, and nothing reserves its name. -/
  | enclosing (f : Frame) (hchain : f ∈ Scope.chainOf (Scope.around? o.scopes node))
      (hclass : f.isClass = true) (hname : f.name = target)
      (hencloses : f.Encloses node.start node.stop) (hfree : IsUnreserved target)

/-- **An interaction draws a call of a file**: the call is in the tree, at the line of the interaction
and with its arguments, and it may go where the interaction goes. -/
structure Outline.Draws (o : Outline) (capture : Capture CallTag) (i : Interaction) : Prop where
  mem : capture ∈ o.callCaptures
  tag : capture.tag = .call ∨ capture.tag = .new
  line : i.line = capture.node.line
  message : ∃ method : String, i.message = s!"{method}({capture.node.argumentText})"
  target : o.Admits capture.node i.target

/-- All calls among some interactions are calls of a file. Returns are none. -/
def Outline.DrawsCalls (o : Outline) (interactions : List Interaction) : Prop :=
  ∀ i ∈ interactions, i.kind ≠ .return → ∃ capture, o.Draws capture i

/-- **A resolved call is admitted** where its scope is the one around it. -/
theorem Outline.admits_of_resolved? {o : Outline} {calls : CallSyntax} {table : TypeTable}
    {capture : Capture CallTag} {call : ResolvedCall} (htable : table.HoldsDeclared)
    (h : resolved? table (.ofOutline o) calls (Scope.around? o.scopes capture.node) capture
      = some call) :
    o.Admits capture.node call.target := by
  obtain ⟨-, hcallable, hkept⟩ := resolved?_spec htable h
  rcases isUnreserved_of_isFiltered hkept with hknown | hfree
  · exact .known hknown
  · rcases hcallable with hfunction | howner | htype
    · exact .known (Or.inl (List.mem_append_right _ hfunction))
    · rw [o.scopes_eq] at howner
      obtain ⟨f, hf, hclass, hname⟩ := Scope.exists_class_mem_chainOf howner
      exact .enclosing f (o.scopes_eq ▸ hf) hclass hname
        (Scope.encloses_of_mem_chainOf o.pairwise_callCaptures hf) hfree
    · exact .type htype (hfree.two_le_length htype) hfree

/-- **What a capture draws** is a call that it resolves to, and its return. -/
theorem Diagram.mem_interactions_addCapture {table : TypeTable} {known : KnownNames}
    {calls : CallSyntax} {scopes : List Scope} {d : Diagram} {capture : Capture CallTag}
    {i : Interaction} (h : i ∈ (d.addCapture table known calls scopes capture).interactions) :
    i ∈ d.interactions ∨ ∃ caller call isAsync,
      resolved? table known calls (Scope.around? scopes capture.node) capture = some call ∧
      i ∈ Interaction.callAndReturn caller call.target
        s!"{call.method}({capture.node.argumentText})" isAsync capture.node.line d.path := by
  rcases addCapture_cases table known calls scopes d capture with
    hsame | ⟨caller, call, -, hcall, hadded⟩
  · exact Or.inl (hsame ▸ h)
  · rw [hadded] at h
    exact (mem_interactions_addCall h).imp_right fun ⟨isAsync, hmem⟩ =>
      ⟨caller, call, isAsync, hcall, hmem⟩

/-- **Whatever is captured keeps the calls admissible.** -/
theorem Outline.DrawsCalls.addCapture {o : Outline} {calls : CallSyntax} {table : TypeTable}
    {d : Diagram} {capture : Capture CallTag} (htable : table.HoldsDeclared)
    (hd : o.DrawsCalls d.interactions) (hcapture : capture ∈ o.callCaptures) :
    o.DrawsCalls (d.addCapture table (.ofOutline o) calls o.scopes capture).interactions := by
  intro i hi hkind
  rcases Diagram.mem_interactions_addCapture hi with hi | ⟨caller, call, isAsync, hcall, hi⟩
  · exact hd i hi hkind
  · rw [Interaction.callAndReturn, List.mem_cons, List.mem_singleton] at hi
    rcases hi with rfl | rfl
    · exact ⟨capture,
        { mem := hcapture
          tag := (resolved?_spec htable hcall).1
          line := rfl
          message := ⟨_, rfl⟩
          target := admits_of_resolved? htable hcall }⟩
    · exact absurd rfl hkind

/-- **Call targets are admissible**, in every file: whatever its type table ever records is a declared
type, and every call that is drawn goes to something that the file declares or imports, to a
declared type, or to a class around the call. In the last two cases nothing reserves the name. -/
theorem SequenceReport.admissible_ofOutline (o : Outline) :
    o.typeTable.HoldsDeclared ∧ o.DrawsCalls (ofOutline o).interactions := by
  refine ⟨o.holdsDeclared_typeTable, ?_⟩
  have hstart : o.DrawsCalls (Diagram.ofOutline o).interactions := by
    rw [Diagram.interactions_ofOutline]
    exact fun _ h => absurd h List.not_mem_nil
  obtain ⟨d, hd, hreport⟩ := ofOutline_of_invariant
    (P := fun d => o.DrawsCalls d.interactions) hstart fun calls d hd capture hcapture =>
      hd.addCapture o.holdsDeclared_typeTable hcapture
  rw [hreport]
  exact hd

end CodeAtlas
