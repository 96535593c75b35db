import CodeAtlas.Proofs.Renaming.Annotation
import CodeAtlas.Relation.Extraction

/-!
# What a class refers to, under a new name

Of a class the relationships read the annotations of its members and its bases, and what kind of
field has which (`ClassDecl.usage`). A search that starts from the names a class refers to, and goes
on from none that a renaming changes (`Renaming.Passes`), comes to the same before and after
(`Renaming.leadsBy_usage`).
-/

namespace CodeAtlas

/-! ## 1. What is read of a class -/

section Usage

variable (ρ : String → String)

/-- What the relationships read of a field, all texts changed. -/
def Property.usage (p : Property) : Property :=
  { name := "", type := p.type.map ρ, visibility := p.visibility, isStatic := p.isStatic }

/-- What the relationships read of a parameter. -/
def Parameter.usage (p : Parameter) : Parameter :=
  { name := "", type := p.type.map ρ }

/-- What the relationships read of a method. -/
def Method.usage (m : Method) : Method :=
  { name := "", parameters := m.parameters.map (·.usage ρ), returnType := m.returnType.map ρ }

/-- **What the relationships read of a class**, all texts changed: its name, the annotations of its
members, and its bases. -/
def ClassDecl.usage (c : ClassDecl) : ClassDecl :=
  { name := ρ c.name
    properties := c.properties.map (·.usage ρ)
    methods := c.methods.map (·.usage ρ)
    base := c.base.map ρ
    implements := c.implements.map ρ
    constructorParameters := c.constructorParameters.map fun ps => ps.map (·.usage ρ) }

variable {ρ}

theorem ClassDecl.usage_congr {c d : ClassDecl} (hname : ρ c.name = ρ d.name)
    (hproperties : c.properties.map (·.usage ρ) = d.properties.map (·.usage ρ))
    (hmethods : c.methods.map (·.usage ρ) = d.methods.map (·.usage ρ))
    (hbase : c.base.map ρ = d.base.map ρ) (himplements : c.implements.map ρ = d.implements.map ρ)
    (hconstructor : c.constructorParameters.map (fun ps => ps.map (·.usage ρ))
      = d.constructorParameters.map fun ps => ps.map (·.usage ρ)) :
    c.usage ρ = d.usage ρ := by
  rw [ClassDecl.usage, hname, hproperties, hmethods, hbase, himplements, hconstructor,
    ClassDecl.usage]

end Usage

/-! ## 2. Where the names of a file lead -/

section Leads

variable (lead : String → Option String)

/-- Where an annotation leads: what it comes down to, if that may be a declared type. Whether it is
a collection may matter. -/
def leadOfType (lead : String → Bool → Option String) (written : Option String) : Option String :=
  (written.bind Annotation.core?).bind fun core =>
    if TypeName.classify core.name = .declared then lead core.name core.isArray else none

/-- Where a field leads by a kind of relationship. -/
def leadOfField (kind : RelationKind) (p : Property) : Option String :=
  leadOfType (fun name isArray =>
    if Relation.isShown kind p { (default : ResolvedType) with isArray } then lead name
    else none) p.type

/-- Where the annotations of a method lead. -/
def leadsOfMethod (m : Method) : List String :=
  m.parameters.filterMap (fun p => leadOfType (fun name _ => lead name) p.type) ++
    (leadOfType (fun name _ => lead name) m.returnType).toList

/-- Where the bases of a class lead. -/
def leadsOfBases (c : ClassDecl) : List String :=
  (c.base.toList.filter (!·.isEmpty) ++ c.implements).filterMap lead

/-- **Where the names that some classes refer to lead**, in the order of the relationships. -/
def leadsBy (classes : List ClassDecl) : List String :=
  classes.flatMap (fun c => c.properties.filterMap (leadOfField lead .composition)) ++
    classes.flatMap (fun c => c.properties.filterMap (leadOfField lead .aggregation)) ++
    classes.flatMap (fun c => c.methods.flatMap (leadsOfMethod lead)) ++
    classes.flatMap (fun c => c.properties.filterMap (leadOfField lead .association)) ++
    classes.flatMap (fun c => (c.constructorParameters.getD []).filterMap fun p =>
      leadOfType (fun name _ => lead name) p.type) ++
    classes.flatMap (leadsOfBases lead)

variable {lead}

/-- A type of a file leads where its annotation does, whatever the file imports. -/
theorem bind_classType? (imports : List Import) (written : Option String)
    (lead : String → Bool → Option String) :
    ((ResolvedType.classType? imports written).bind fun type => lead type.name type.isArray)
      = leadOfType lead written := by
  rw [ResolvedType.classType?, ResolvedType.ofAnnotation?, leadOfType]
  cases written.bind Annotation.core? with
  | none => rfl
  | some core =>
    dsimp only
    cases hcategory : TypeName.classify core.name <;> simp [hcategory, Option.filter]

theorem filterMap_ofFields (kind : RelationKind) (imports : List Import) (c : ClassDecl) :
    ((Relation.ofFields kind imports c).map (·.target)).filterMap lead
      = c.properties.filterMap (leadOfField lead kind) := by
  rw [Relation.ofFields, List.filterMap_map, List.filterMap_filterMap]
  refine List.filterMap_congr fun p _ => ?_
  rw [leadOfField, ← bind_classType? imports]
  cases ResolvedType.classType? imports p.type with
  | none => rfl
  | some type =>
    have hkind : Relation.isShown kind p { (default : ResolvedType) with isArray := type.isArray }
      = Relation.isShown kind p type := rfl
    dsimp only [Option.bind_some]
    rw [hkind]
    split
    · rfl
    · rfl

/-- Where the relationships to the types of some annotations lead. -/
theorem filterMap_target {imports : List Import} {written : Option String}
    {relation : ResolvedType → Relation} (htarget : ∀ type, (relation type).target = type.name) :
    ((ResolvedType.classType? imports written).map relation).bind (fun r => lead r.target)
      = leadOfType (fun name _ => lead name) written := by
  rw [← bind_classType? imports]
  cases ResolvedType.classType? imports written with
  | none => rfl
  | some type => exact congrArg lead (htarget type)

theorem filterMap_toList {α β : Type} (f : α → Option β) (a : Option α) :
    a.toList.filterMap f = (a.bind f).toList := by
  cases a with
  | none => rfl
  | some a => cases h : f a <;> simp [h]

theorem filterMap_ofMethods (imports : List Import) (c : ClassDecl) :
    ((Relation.ofMethods imports c).map (·.target)).filterMap lead
      = c.methods.flatMap (leadsOfMethod lead) := by
  rw [Relation.ofMethods, List.map_flatMap, List.filterMap_flatMap]
  refine List.flatMap_congr fun m _ => ?_
  rw [Relation.ofMethod, leadsOfMethod, List.filterMap_map, List.filterMap_append,
    List.filterMap_filterMap]
  refine congrArg₂ (· ++ ·) (List.filterMap_congr fun p _ => ?_) ?_
  · exact filterMap_target fun _ => rfl
  · exact (filterMap_toList _ _).trans
      (congrArg Option.toList (filterMap_target fun _ => rfl))

theorem filterMap_ofConstructor (imports : List Import) (c : ClassDecl) :
    ((Relation.ofConstructor imports c).map (·.target)).filterMap lead
      = (c.constructorParameters.getD []).filterMap fun p =>
        leadOfType (fun name _ => lead name) p.type := by
  rw [Relation.ofConstructor, List.filterMap_map, List.filterMap_filterMap]
  exact List.filterMap_congr fun p _ => filterMap_target fun _ => rfl

/-- **The relationships and the bases of some classes lead where the classes do.** -/
theorem filterMap_references (o : Outline) :
    ((RelationReport.ofOutline o).relations.map (·.target) ++
      o.classes.flatMap fun c => c.base.toList.filter (!·.isEmpty) ++ c.implements).filterMap lead
      = leadsBy lead o.classes := by
  have hpart : ∀ {part : ClassDecl → List Relation} {leads : ClassDecl → List String},
      (∀ c, ((part c).map (·.target)).filterMap lead = leads c) →
      ((o.classes.flatMap part).map (·.target)).filterMap lead = o.classes.flatMap leads := by
    intro part leads hclass
    rw [List.map_flatMap, List.filterMap_flatMap]
    exact List.flatMap_congr fun c _ => hclass c
  rw [RelationReport.relations, RelationReport.ofOutline]
  simp only [List.map_append, List.filterMap_append]
  rw [hpart (filterMap_ofFields .composition o.imports),
    hpart (filterMap_ofFields .aggregation o.imports), hpart (filterMap_ofMethods o.imports),
    hpart (filterMap_ofFields .association o.imports), hpart (filterMap_ofConstructor o.imports),
    List.filterMap_flatMap]
  rfl

end Leads

/-! ## 3. Under a new name -/

namespace Renaming

variable {r : Renaming} {lead : String → Option String}

/-- **A renaming passes by a search**: the search goes on from names only that the renaming leaves
alone. -/
def Passes (r : Renaming) (lead : String → Option String) : Prop :=
  ∀ name target, lead name = some target →
    IsName name.toList ∧ name.toList ≠ r.old ∧ name.toList ≠ r.new

/-- Such a search comes to the same from the new name of anything. -/
theorem Passes.string (h : r.Passes lead) (name : String) : lead (r.string name) = lead name := by
  refine Option.ext fun target => ?_
  constructor
  · intro hlead
    obtain ⟨hname, hold, hnew⟩ := h _ target hlead
    have hsame : r.text name.toList = (r.string name).toList := (r.toList_string name).symm
    rw [r.text_eq_iff hname hold hnew, String.toList_inj] at hsame
    rwa [← hsame] at hlead
  · intro hlead
    obtain ⟨hname, hold, hnew⟩ := h name target hlead
    have hsame : r.string name = name := by
      rw [← String.toList_inj, toList_string, r.text_eq_iff hname hold hnew]
    rwa [hsame]

theorem Passes.leadOfType {lead : String → Bool → Option String}
    (hspares : r.Spares Annotation.knownWords) (h : ∀ isArray, r.Passes (lead · isArray)) (written : Option String) :
    leadOfType lead (written.map r.string) = leadOfType lead written := by
  have hdeclared : ∀ isArray, r.Passes fun name =>
      if TypeName.classify name = .declared then lead name isArray else none := by
    intro isArray name target hlead
    dsimp only at hlead
    split at hlead
    · exact h isArray name target hlead
    · cases hlead
  rw [CodeAtlas.leadOfType, CodeAtlas.leadOfType]
  cases written with
  | none => rfl
  | some written =>
    rw [Option.map_some, Option.bind_some, Option.bind_some, core?_string hspares]
    cases Annotation.core? written with
    | none => rfl
    | some core => exact (hdeclared core.isArray).string core.name

theorem Passes.leadOfField (hspares : r.Spares Annotation.knownWords) (h : r.Passes lead)
    (kind : RelationKind) (p : Property) :
    leadOfField lead kind (p.usage r.string) = leadOfField lead kind p := by
  refine Passes.leadOfType hspares (fun isArray name target hlead => ?_) p.type
  dsimp only at hlead
  split at hlead
  · exact h name target hlead
  · cases hlead

theorem Passes.leadsOfMethod (hspares : r.Spares Annotation.knownWords) (h : r.Passes lead)
    (m : Method) : leadsOfMethod lead (m.usage r.string) = leadsOfMethod lead m := by
  have htype : ∀ written : Option String,
      CodeAtlas.leadOfType (fun name _ => lead name) (written.map r.string)
        = CodeAtlas.leadOfType (fun name _ => lead name) written :=
    Passes.leadOfType hspares fun _ => h
  rw [CodeAtlas.leadsOfMethod, Method.usage, List.filterMap_map, htype, CodeAtlas.leadsOfMethod]
  exact congrArg (· ++ _) (List.filterMap_congr fun p _ => htype p.type)

theorem Passes.leadsOfBases (h : r.Passes lead) (c : ClassDecl) :
    leadsOfBases lead (c.usage r.string) = leadsOfBases lead c := by
  have hbases : ∀ names : List String, (names.map r.string).filterMap lead = names.filterMap lead := by
    intro names
    rw [List.filterMap_map]
    exact List.filterMap_congr fun name _ => h.string name
  have hbase : (c.base.map r.string).toList.filter (!·.isEmpty)
      = (c.base.toList.filter (!·.isEmpty)).map r.string := by
    cases c.base with
    | none => rfl
    | some base =>
      rw [Option.map_some, Option.toList_some, Option.toList_some]
      cases hempty : base.isEmpty <;> simp [r.isEmpty_string, hempty]
  rw [CodeAtlas.leadsOfBases, ClassDecl.usage, hbase, List.filterMap_append, hbases, hbases,
    ← List.filterMap_append, CodeAtlas.leadsOfBases]

/-- **Some classes lead to the same under the new name.** -/
theorem leadsBy_usage (hspares : r.Spares Annotation.knownWords) (h : r.Passes lead)
    (classes : List ClassDecl) :
    leadsBy lead (classes.map (·.usage r.string)) = leadsBy lead classes := by
  have hfields : ∀ kind, (classes.map (·.usage r.string)).flatMap
        (fun c => c.properties.filterMap (CodeAtlas.leadOfField lead kind))
      = classes.flatMap fun c => c.properties.filterMap (CodeAtlas.leadOfField lead kind) := by
    intro kind
    rw [List.flatMap_map]
    refine List.flatMap_congr fun c _ => ?_
    rw [ClassDecl.usage, List.filterMap_map]
    exact List.filterMap_congr fun p _ => h.leadOfField hspares kind p
  have hmethods : (classes.map (·.usage r.string)).flatMap
        (fun c => c.methods.flatMap (CodeAtlas.leadsOfMethod lead))
      = classes.flatMap fun c => c.methods.flatMap (CodeAtlas.leadsOfMethod lead) := by
    rw [List.flatMap_map]
    refine List.flatMap_congr fun c _ => ?_
    rw [ClassDecl.usage, List.flatMap_map]
    exact List.flatMap_congr fun m _ => h.leadsOfMethod hspares m
  have hconstructors : (classes.map (·.usage r.string)).flatMap
        (fun c => (c.constructorParameters.getD []).filterMap fun p =>
          CodeAtlas.leadOfType (fun name _ => lead name) p.type)
      = classes.flatMap fun c => (c.constructorParameters.getD []).filterMap fun p =>
          CodeAtlas.leadOfType (fun name _ => lead name) p.type := by
    rw [List.flatMap_map]
    refine List.flatMap_congr fun c _ => ?_
    rw [ClassDecl.usage]
    dsimp only
    cases c.constructorParameters with
    | none => rfl
    | some ps =>
      rw [Option.map_some, Option.getD_some, Option.getD_some, List.filterMap_map]
      exact List.filterMap_congr fun p _ => Passes.leadOfType hspares (fun _ => h) p.type
  have hbases : (classes.map (·.usage r.string)).flatMap (CodeAtlas.leadsOfBases lead)
      = classes.flatMap (CodeAtlas.leadsOfBases lead) := by
    rw [List.flatMap_map]
    exact List.flatMap_congr fun c _ => h.leadsOfBases c
  rw [leadsBy, hfields, hfields, hmethods, hfields, hconstructors, hbases, leadsBy]

end Renaming

end CodeAtlas
