import CodeAtlas.Proofs.Outline.Mirror
import CodeAtlas.Proofs.Outline.NestedType
import CodeAtlas.Relation.Extraction

/-!
# Flags of fields

A field carries two flags next to its annotation: whether that stands for a collection, and whether it
comes down to the name of a declared type. The relationships of a file are read from the annotation
again, so the flags have to say the same (`Property.IsFlagged`). Every reader takes both flags from the
annotation that it stores, however it came by it: written, inferred from a value, taken over from a
parameter, or with the dimensions that stand after a name. There is one lemma for each reader; the
fields of interfaces follow from those of the classes that mirror them.

That the flags agree with the relationships is a fact about annotations alone
(`ResolvedType.flags_of_ofAnnotation?`, `ResolvedType.exists_of_describe`).
-/

namespace CodeAtlas

open Annotation (describe)

/-! ## 1. Flags and resolved types -/

/-- **A field is flagged rightly** if its flags are those that its annotation describes. -/
def Property.IsFlagged (p : Property) : Prop :=
  (p.isArray, p.isClassType) = describe p.type

namespace ResolvedType

variable {imports : List Import} {written : Option String} {type : ResolvedType}

/-- What an annotation resolves to has the flags that it describes. -/
theorem flags_of_ofAnnotation? (h : ofAnnotation? imports written = some type) :
    (type.isArray, type.isClassType) = describe written := by
  unfold ofAnnotation? at h
  unfold describe
  cases hcore : written.bind Annotation.core? with
  | none =>
    rw [hcore] at h
    cases h
  | some core =>
    rw [hcore] at h
    dsimp only at h
    split at h
    · cases h
    · cases h
      rfl

/-- An annotation that comes down to the name of a declared type resolves to it. -/
theorem exists_of_describe (imports : List Import)
    (h : (describe written).2 = true) :
    ∃ type, ofAnnotation? imports written = some type := by
  unfold describe at h
  cases hcore : written.bind Annotation.core? with
  | none =>
    rw [hcore] at h
    cases h
  | some core =>
    rw [hcore] at h
    have hdeclared : TypeName.classify core.name = .declared := eq_of_beq h
    have htyped : ¬ (TypeName.classify core.name == .untyped) = true := by
      rw [hdeclared]
      decide
    rw [ofAnnotation?, hcore]
    dsimp only
    rw [if_neg htyped]
    exact ⟨_, rfl⟩

end ResolvedType

namespace Outline

open Syntax

variable {path : String} {node root : Node} {c : ClassDecl}

/-! ## 2. Script files -/

theorem Script.isFlagged_property (node : Node) : (Script.property node).IsFlagged :=
  rfl

theorem Script.isFlagged_of_signatureProperty? {p : Property}
    (h : Script.signatureProperty? node = some p) : p.IsFlagged := by
  unfold Script.signatureProperty? at h
  split at h
  · cases h
    rfl
  · cases h

theorem Script.isFlagged_of_classDecl? {defaultName : Option String}
    (h : Script.classDecl? path node defaultName = some c) : ∀ p ∈ c.properties, p.IsFlagged := by
  unfold Script.classDecl? at h
  split at h
  · cases h
  · cases h
    intro p hp
    obtain ⟨member, hmember, hproperty⟩ := List.mem_filterMap.1 hp
    cases member with
    | method m | constructor ps => cases hproperty
    | property q =>
      obtain rfl : q = p := Option.some.inj hproperty
      -- a member that is a field has been read by the reader of fields
      have hread : ∃ n : Node, Script.member? n = some (.property q) := by
        split at hmember
        · obtain ⟨n, -, hn⟩ := List.mem_filterMap.1 hmember
          exact ⟨n, hn⟩
        · exact absurd hmember List.not_mem_nil
      obtain ⟨n, hn⟩ := hread
      unfold Script.member? at hn
      split at hn
      · cases hn
        exact Script.isFlagged_property n
      · split at hn
        · dsimp only at hn
          split at hn <;> cases hn
        · cases hn

theorem Script.isFlagged_of_interfaceDecl? {i : InterfaceDecl}
    (h : Script.interfaceDecl? path node = some i) : ∀ p ∈ i.properties, p.IsFlagged := by
  obtain ⟨name, -, rfl⟩ := Option.map_eq_some_iff.1 h
  intro p hp
  obtain ⟨n, -, hn⟩ := List.mem_filterMap.1 hp
  exact Script.isFlagged_of_signatureProperty? hn

theorem Script.Adds.isFlagged (h : Script.Adds path node c) : ∀ p ∈ c.properties, p.IsFlagged := by
  cases h with
  | ofClass hdefault hclass => exact Script.isFlagged_of_classDecl? hclass
  | ofInterface hinterface hc =>
    subst hc
    exact Script.isFlagged_of_interfaceDecl? hinterface
  | ofEnum hname hc =>
    subst hc
    exact fun p hp => absurd hp List.not_mem_nil

/-! ## 3. Java files -/

/-- An empty annotation describes what a missing one does. -/
theorem describe_nonempty? (written : String) :
    describe (nonempty? written) = describe (some written) := by
  by_cases h : written = ""
  · subst h
    decide +kernel
  · rw [nonempty?_of_ne h]

theorem Java.isFlagged_of_mem_properties {inInterface : Bool} {p : Property}
    (h : p ∈ Java.properties inInterface node) : p.IsFlagged := by
  unfold Java.properties at h
  split at h
  · obtain ⟨declarator, -, rfl⟩ := List.mem_map.1 h
    exact (describe_nonempty? _).symm
  · exact absurd h List.not_mem_nil

theorem Java.isFlagged_componentProperty (line : Int) (component : Parameter) :
    (Java.componentProperty line component).IsFlagged :=
  rfl

theorem Java.isFlagged_ownClass (path : String) (node : Node) :
    ∀ p ∈ (Java.ownClass path node).properties, p.IsFlagged := by
  have hmembers : ∀ inInterface, ∀ p ∈ (Java.bodyMembers node).flatMap (Java.properties inInterface),
      p.IsFlagged := by
    intro inInterface p hp
    obtain ⟨member, -, hmember⟩ := List.mem_flatMap.1 hp
    exact Java.isFlagged_of_mem_properties hmember
  unfold Java.ownClass
  split
  · exact hmembers true
  · split
    · intro p hp
      rcases List.mem_append.1 hp with hcomponent | hmember
      · obtain ⟨component, -, rfl⟩ := List.mem_map.1 hcomponent
        exact Java.isFlagged_componentProperty _ component
      · exact hmembers false p hmember
    · exact hmembers false

/-! ## 4. Python files -/

theorem Python.isFlagged_addProperty {ps : List Property} (h : ∀ p ∈ ps, p.IsFlagged)
    (name : String) (type : Option String) (isStatic : Bool) (line : Int) :
    ∀ p ∈ Python.addProperty ps name type isStatic line, p.IsFlagged := by
  unfold Python.addProperty
  split
  · exact h
  · intro p hp
    rcases List.mem_append.1 hp with hp | hnew
    · exact h p hp
    · rw [List.mem_singleton.1 hnew]
      rfl

theorem Python.isFlagged_addClassAttribute {ps : List Property} (h : ∀ p ∈ ps, p.IsFlagged)
    (statement : Node) : ∀ p ∈ Python.addClassAttribute ps statement, p.IsFlagged := by
  unfold Python.addClassAttribute
  split
  · exact h
  · split
    · exact h
    · split
      · exact h
      · split
        · exact Python.isFlagged_addProperty h _ _ _ _
        · exact Python.isFlagged_addProperty h _ _ _ _

theorem Python.isFlagged_addInstanceAttribute {parameters : List Parameter} {ps : List Property}
    (h : ∀ p ∈ ps, p.IsFlagged) (assignment : Node) :
    ∀ p ∈ Python.addInstanceAttribute parameters ps assignment, p.IsFlagged := by
  unfold Python.addInstanceAttribute
  split
  · exact h
  · split
    · exact Python.isFlagged_addProperty h _ _ _ _
    · exact h

theorem Python.isFlagged_addInstanceAttributes {parameters : List Parameter} {ps : List Property}
    (h : ∀ p ∈ ps, p.IsFlagged) (init : Node) :
    ∀ p ∈ Python.addInstanceAttributes parameters ps init, p.IsFlagged := by
  unfold Python.addInstanceAttributes
  split
  · exact h
  · exact List.foldlRecOn (motive := fun (ps : List Property) => ∀ p ∈ ps, p.IsFlagged) _ _ h
      fun before hbefore assignment _ => Python.isFlagged_addInstanceAttribute hbefore assignment

theorem Python.isFlagged_addStatement {body : Python.Body} (h : ∀ p ∈ body.properties, p.IsFlagged)
    (statement : Node) : ∀ p ∈ (body.addStatement statement).properties, p.IsFlagged := by
  unfold Python.Body.addStatement
  dsimp only
  split
  · unfold Python.Body.addMethod
    dsimp only
    split
    · exact Python.isFlagged_addInstanceAttributes h _
    · exact h
  · split
    · exact Python.isFlagged_addClassAttribute h _
    · exact h

theorem Python.isFlagged_of_mem_classDeclared (h : c ∈ (Python.classDeclared path node).classes) :
    ∀ p ∈ c.properties, p.IsFlagged := by
  unfold Python.classDeclared at h
  split at h
  · exact absurd h List.not_mem_nil
  · rw [List.mem_singleton.1 h]
    dsimp only
    split
    · exact List.foldlRecOn (motive := fun (body : Python.Body) => ∀ p ∈ body.properties, p.IsFlagged) _ _
        (fun p hp => absurd hp List.not_mem_nil)
        fun before hbefore statement _ => Python.isFlagged_addStatement hbefore statement
    · exact fun p hp => absurd hp List.not_mem_nil

/-! ## 5. Whole files -/

theorem isFlagged_of_mem_classes {language : Language}
    (h : c ∈ (ofSoundTree language path root).classes) : ∀ p ∈ c.properties, p.IsFlagged := by
  cases language with
  | java =>
    rw [Java.classes_outline] at h
    obtain ⟨type, -, rfl⟩ := List.mem_map.1 h
    exact Java.isFlagged_ownClass path type.2
  | python =>
    rw [classes_ofSoundTree] at h
    obtain ⟨statement, -, hc⟩ := List.mem_flatMap.1 h
    exact Python.isFlagged_of_mem_classDeclared (Python.mem_classDeclared_of_mem_declared hc).2
  | typescript | javascript | go =>
    rw [classes_ofSoundTree] at h
    obtain ⟨statement, -, hc⟩ := List.mem_flatMap.1 h
    obtain ⟨declaration, -, hadds⟩ := Script.exists_holds_of_mem_statement hc
    exact hadds.isFlagged

/-- The fields of an interface are those of the class that mirrors it. -/
theorem isFlagged_of_mem_interfaces {language : Language} {i : InterfaceDecl}
    (h : i ∈ (ofSoundTree language path root).interfaces) : ∀ p ∈ i.properties, p.IsFlagged := by
  obtain ⟨k, hk, hi⟩ := List.getElem_of_mem h
  have hmirrored := forall₂_ofSoundTree language path root
  have hk' : k < (interfaceForms (ofSoundTree language path root).classes).length :=
    hmirrored.length_eq ▸ hk
  have hform := (List.forall₂_iff_get.1 hmirrored).2 k hk hk'
  rw [List.get_eq_getElem, hi] at hform
  rw [← hform.properties]
  exact isFlagged_of_mem_classes (List.mem_of_mem_filter (List.get_mem _ _))

/-- **The flags of fields agree with the relationships.** A tree without faults, in any language, has an
outline in which every field of a class or an interface has the flags that its annotation describes.
And an annotation describes a declared type exactly if it resolves to one, which is a collection if the
flags say so, whatever the file imports. -/
theorem flagged_ofTree {language : Language} (h : root.firstFault? = none) :
    ∃ o, ofTree language path root = .ok o ∧
      (∀ c ∈ o.classes, ∀ p ∈ c.properties, p.IsFlagged) ∧
      (∀ i ∈ o.interfaces, ∀ p ∈ i.properties, p.IsFlagged) ∧
      ∀ (imports : List Import) (written : Option String),
        ((describe written).2 = true ↔
          ∃ type, ResolvedType.ofAnnotation? imports written = some type ∧ type.isClassType = true) ∧
        ∀ type, ResolvedType.ofAnnotation? imports written = some type →
          type.isArray = (describe written).1 := by
  refine ⟨_, ofTree_of_sound h, fun c hc => isFlagged_of_mem_classes hc,
    fun i hi => isFlagged_of_mem_interfaces hi, fun imports written => ⟨⟨fun hdeclared => ?_, ?_⟩, ?_⟩⟩
  · obtain ⟨type, htype⟩ := ResolvedType.exists_of_describe imports hdeclared
    refine ⟨type, htype, ?_⟩
    rw [← hdeclared, ← ResolvedType.flags_of_ofAnnotation? htype]
  · rintro ⟨type, htype, hclass⟩
    rw [← ResolvedType.flags_of_ofAnnotation? htype, hclass]
  · intro type htype
    rw [← ResolvedType.flags_of_ofAnnotation? htype]

/-! ## A field that is given a parameter -/

/-- The text of a class whose initialiser hands a list of users on to a field. -/
def handedOnText : String :=
  "class A:\n    def __init__(self, us: List[User]):\n        self.us = us\n"

/-- The initialiser in the tree of that text. -/
def handingOn : Node :=
  let rule := (Source.ofString handedOnText).rule
  let token := (Source.ofString handedOnText).token
  rule 5 "function_definition" none 13 69
    [token 6 "def" 13 16, rule 7 "identifier" (some "name") 17 25 [],
      rule 8 "parameters" (some "parameters") 25 47
        [token 9 "(" 25 26, rule 10 "identifier" none 26 30 [], token 11 "," 30 31,
          rule 12 "typed_parameter" none 32 46
            [rule 13 "identifier" none 32 34 [], token 14 ":" 34 35,
              rule 15 "type" (some "type") 36 46
                [rule 16 "generic_type" none 36 46
                  [rule 17 "identifier" none 36 40 [],
                    rule 18 "type_parameter" none 40 46
                      [token 19 "[" 40 41,
                        rule 20 "type" none 41 45 [rule 21 "identifier" none 41 45 []],
                        token 22 "]" 45 46]]]],
          token 23 ")" 46 47],
      token 24 ":" 47 48,
      rule 25 "block" (some "body") 57 69
        [rule 26 "expression_statement" none 57 69
          [rule 27 "assignment" none 57 69
            [rule 28 "attribute" (some "left") 57 64
              [rule 29 "identifier" (some "object") 57 61 [], token 30 "." 61 62,
                rule 31 "identifier" (some "attribute") 62 64 []],
              token 32 "=" 65 66, rule 33 "identifier" (some "right") 67 69 []]]]]

/-- The tree of that text. -/
def handedOn : Node :=
  let rule := (Source.ofString handedOnText).rule
  let token := (Source.ofString handedOnText).token
  rule 0 "module" none 0 70
    [rule 1 "class_definition" none 0 69
      [token 2 "class" 0 5, rule 3 "identifier" (some "name") 6 7 [], token 34 ":" 7 8,
        rule 4 "block" (some "body") 13 69 [handingOn]]]

/-- The field has the annotation of the parameter, and the flags of a collection of a declared type. -/
theorem flagged_ofTree_handedOn :
    handedOn.firstFault? = none ∧
      ∃ o, ofTree .python "/a.py" handedOn = .ok o ∧
        (o.classes.map fun c => c.properties.map fun p =>
          (p.name, p.type, p.isArray, p.isClassType)) = [[("us", some "List[User]", true, true)]] ∧
        (∀ c ∈ o.classes, ∀ p ∈ c.properties, p.IsFlagged) ∧
        ∀ i ∈ o.interfaces, ∀ p ∈ i.properties, p.IsFlagged := by
  have hsound : handedOn.firstFault? = none :=
    Option.isNone_iff_eq_none.1 (by decide +kernel)
  obtain ⟨o, htree, hclasses, hinterfaces, -⟩ := @flagged_ofTree "/a.py" handedOn .python hsound
  refine ⟨hsound, o, htree, ?_, hclasses, hinterfaces⟩
  rw [ofTree_of_sound hsound] at htree
  rw [← Except.ok.inj htree]
  decide +kernel

end Outline

end CodeAtlas
