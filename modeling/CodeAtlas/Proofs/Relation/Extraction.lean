import CodeAtlas.Proofs.Annotation
import CodeAtlas.Relation.Extraction

/-!
# Where relationships stem from

No relationship is made up: each goes from a class of the file to a name that stands in one of the
annotations of that class, and its kind, its line and its context say in which one
(`RelationReport.exists_stems_of_mem`). A type that is resolved has been read from an annotation, so a
missing annotation, and one that leaves the type open, give nothing.
-/

namespace CodeAtlas

/-! ## 1. Resolved types -/

namespace ResolvedType

variable {imports : List Import} {type : ResolvedType}

/-- **A type is read from an annotation**: it is what the annotation comes down to, and that is the
name of a declared type. -/
structure IsReadFrom (type : ResolvedType) (imports : List Import) (written : String) : Prop where
  core : ∃ core, Annotation.core? written = some core ∧ core.name = type.name ∧
    core.isArray = type.isArray
  declared : TypeName.classify type.name = .declared
  sourceModule : type.sourceModule = importSource? imports type.name

theorem exists_isReadFrom {written : Option String} (h : classType? imports written = some type) :
    ∃ text, written = some text ∧ type.IsReadFrom imports text := by
  obtain ⟨hresolved, hclass⟩ := Option.filter_eq_some_iff.1 h
  unfold ofAnnotation? at hresolved
  split at hresolved
  · cases hresolved
  · rename_i core hcore
    obtain ⟨text, rfl, hread⟩ := Option.bind_eq_some_iff.1 hcore
    dsimp only at hresolved
    split at hresolved
    · cases hresolved
    · cases hresolved
      exact ⟨text, rfl,
        { core := ⟨core, hread, rfl, rfl⟩
          declared := eq_of_beq hclass
          sourceModule := rfl }⟩

/-- The module of a name is that of the first import that lists it. -/
theorem importSource?_eq_some {name source : String} (h : importSource? imports name = some source) :
    ∃ before i after, imports = before ++ i :: after ∧ name ∈ i.specifiers ∧ i.source = source ∧
      ∀ j ∈ before, name ∉ j.specifiers := by
  obtain ⟨i, hfound, hsource⟩ := Option.map_eq_some_iff.1 h
  obtain ⟨hlists, before, after, heq, hbefore⟩ := List.find?_eq_some_iff_append.1 hfound
  refine ⟨before, i, after, heq, List.contains_iff_mem.1 hlists, hsource, fun j hj hmem => ?_⟩
  have hnot := hbefore j hj
  rw [List.contains_iff_mem.2 hmem] at hnot
  cases hnot

/-- A type is imported if some import lists it. -/
theorem isSome_importSource? {name : String} :
    (importSource? imports name).isSome = true ↔ ∃ i ∈ imports, name ∈ i.specifiers := by
  rw [importSource?, Option.isSome_map, List.find?_isSome]
  simp only [List.contains_iff_mem]

end ResolvedType

/-! ## 2. Places of annotations -/

namespace Relation

/-- **What a field shows**: a collection is an aggregation, of many; a single value is a composition
if the field is private or belongs to an object, and an association if everybody may use it and it
belongs to the class. -/
inductive ShownByField (r : Relation) (p : Property) (isArray : Bool) : Prop where
  | aggregation (hkind : r.kind = .aggregation) (hmany : r.cardinality = some "*")
      (harray : isArray = true)
  | composition (hkind : r.kind = .composition) (hone : r.cardinality = some "1")
      (harray : isArray = false) (hown : p.visibility = .priv ∨ p.isStatic = false)
  | association (hkind : r.kind = .association) (hone : r.cardinality = some "1")
      (harray : isArray = false) (hpublic : p.visibility = .pub) (hstatic : p.isStatic = true)

/-- **A relationship is shown by an annotation of a class**: that of a field, of a parameter of a
method, of the result of one, or of a parameter of the constructor. Its kind, line and context are
those of the place. -/
inductive ShownBy (r : Relation) (c : ClassDecl) (written : String) (isArray : Bool) : Prop where
  | field (p : Property) (hp : p ∈ c.properties) (hwritten : p.type = some written)
      (hkind : r.ShownByField p isArray) (hline : r.line = p.line) (hcontext : r.context = p.name)
  | parameter (m : Method) (hm : m ∈ c.methods) (p : Parameter) (hp : p ∈ m.parameters)
      (hwritten : p.type = some written) (hkind : r.kind = .dependency)
      (hcardinality : r.cardinality = none) (hline : r.line = m.line)
      (hcontext : r.context = s!"{m.name}({p.name})")
  | result (m : Method) (hm : m ∈ c.methods) (hwritten : m.returnType = some written)
      (hkind : r.kind = .dependency) (hcardinality : r.cardinality = none) (hline : r.line = m.line)
      (hcontext : r.context = s!"{m.name}() returns {r.target}")
  | constructorParameter (ps : List Parameter) (hps : c.constructorParameters = some ps)
      (p : Parameter) (hp : p ∈ ps) (hwritten : p.type = some written) (hkind : r.kind = .injection)
      (hcardinality : r.cardinality = none) (hline : r.line = c.line)
      (hcontext : r.context = s!"constructor({p.name})")

/-- **A relationship stems from a class and an annotation** of a file: the class has the annotation
where the relationship says, the target is the name that the annotation comes down to, and it is
external if the file imports it, from the module of the first import that lists it. -/
structure Stems (r : Relation) (o : Outline) (c : ClassDecl) (written : String) : Prop where
  mem : c ∈ o.classes
  source : r.source = c.name
  place : ∃ core, Annotation.core? written = some core ∧ core.name = r.target ∧
    r.ShownBy c written core.isArray
  typed : TypeName.classify written ≠ .untyped
  declared : TypeName.classify r.target = .declared
  contiguous : r.target.toList <:+: written.toList
  external : r.isExternal = true ↔ ∃ i ∈ o.imports, r.target ∈ i.specifiers
  first : r.isExternal = true → ∃ before i after, o.imports = before ++ i :: after ∧
    r.target ∈ i.specifiers ∧ r.sourceModule = some i.source ∧
      ∀ j ∈ before, r.target ∉ j.specifiers
  internal : r.isExternal = false → r.sourceModule = none

section Between

variable {o : Outline} {c : ClassDecl} {type : ResolvedType} {written : String}
  {kind : RelationKind} {cardinality : Option String} {line : Int} {context : String} {r : Relation}

/-- **The relationship to a type stems from where the type was read.** -/
theorem stems_between (hc : c ∈ o.classes) (htype : type.IsReadFrom o.imports written)
    (hplace : (between c type kind cardinality line context).ShownBy c written type.isArray) :
    (between c type kind cardinality line context).Stems o c written := by
  obtain ⟨core, hcore, hname, harray⟩ := htype.core
  have hcontiguous : type.name.toList <:+: written.toList :=
    hname ▸ Annotation.infix_of_core? hcore
  have hexternal : (between c type kind cardinality line context).isExternal
      = (ResolvedType.importSource? o.imports type.name).isSome :=
    congrArg Option.isSome htype.sourceModule
  refine
    { mem := hc
      source := rfl
      place := ⟨core, hcore, hname, harray ▸ hplace⟩
      typed := Annotation.classify_ne_untyped_of_core? hcore
      declared := htype.declared
      contiguous := hcontiguous
      external := ?_
      first := fun himported => ?_
      internal := fun hinternal => ?_ }
  · rw [hexternal]
    exact ResolvedType.isSome_importSource?
  · rw [hexternal] at himported
    obtain ⟨source, hsource⟩ := Option.isSome_iff_exists.1 himported
    obtain ⟨before, i, after, heq, hlists, rfl, hbefore⟩ :=
      ResolvedType.importSource?_eq_some hsource
    exact ⟨before, i, after, heq, hlists, htype.sourceModule.trans hsource, hbefore⟩
  · exact Option.not_isSome_iff_eq_none.1 (Bool.eq_false_iff.1 hinternal)

/-! ## 3. Members of a class -/

theorem exists_stems_of_mem_ofFields (hc : c ∈ o.classes) (h : r ∈ ofFields kind o.imports c) :
    ∃ written, r.Stems o c written := by
  obtain ⟨p, hp, hr⟩ := List.mem_filterMap.1 h
  split at hr
  · cases hr
  · rename_i type htype
    split at hr
    · rename_i hkind
      cases hr
      obtain ⟨written, hwritten, hread⟩ := ResolvedType.exists_isReadFrom htype
      refine ⟨written, stems_between hc hread (.field p hp hwritten ?_ rfl rfl)⟩
      cases kind with
      | composition =>
        obtain ⟨harray, hown⟩ := Bool.and_eq_true_iff.1 hkind
        exact .composition rfl rfl (by simpa using harray) (by simpa using hown)
      | aggregation => exact .aggregation rfl rfl hkind
      | association =>
        obtain ⟨harray, hshared⟩ := Bool.and_eq_true_iff.1 hkind
        obtain ⟨hpublic, hstatic⟩ := Bool.and_eq_true_iff.1 hshared
        exact .association rfl rfl (by simpa using harray) (eq_of_beq hpublic) hstatic
      | dependency | injection => cases hkind
    · cases hr

theorem exists_stems_of_mem_ofMethods (hc : c ∈ o.classes) (h : r ∈ ofMethods o.imports c) :
    ∃ written, r.Stems o c written := by
  obtain ⟨m, hm, hr⟩ := List.mem_flatMap.1 h
  rcases List.mem_append.1 hr with hr | hr
  · obtain ⟨p, hp, hr⟩ := List.mem_filterMap.1 hr
    obtain ⟨type, htype, rfl⟩ := Option.map_eq_some_iff.1 hr
    obtain ⟨written, hwritten, hread⟩ := ResolvedType.exists_isReadFrom htype
    exact ⟨written, stems_between hc hread (.parameter m hm p hp hwritten rfl rfl rfl rfl)⟩
  · obtain ⟨type, htype, rfl⟩ := Option.map_eq_some_iff.1 (Option.mem_toList.1 hr)
    obtain ⟨written, hwritten, hread⟩ := ResolvedType.exists_isReadFrom htype
    exact ⟨written, stems_between hc hread (.result m hm hwritten rfl rfl rfl rfl)⟩

theorem exists_stems_of_mem_ofConstructor (hc : c ∈ o.classes)
    (h : r ∈ ofConstructor o.imports c) : ∃ written, r.Stems o c written := by
  obtain ⟨p, hp, hr⟩ := List.mem_filterMap.1 h
  obtain ⟨type, htype, rfl⟩ := Option.map_eq_some_iff.1 hr
  obtain ⟨written, hwritten, hread⟩ := ResolvedType.exists_isReadFrom htype
  cases hps : c.constructorParameters with
  | none =>
    rw [hps] at hp
    cases hp
  | some ps =>
    rw [hps] at hp
    exact ⟨written,
      stems_between hc hread (.constructorParameter ps hps p hp hwritten rfl rfl rfl rfl)⟩

end Between

end Relation

/-! ## 4. Files -/

/-- **No relationship is made up**, whatever the annotations of a file are: each stems from a class of
the file and from an annotation of that class. -/
theorem RelationReport.exists_stems_of_mem {o : Outline} {r : Relation}
    (h : r ∈ (ofOutline o).relations) : ∃ c written, r.Stems o c written := by
  simp only [relations, ofOutline, List.mem_append, List.mem_flatMap] at h
  rcases h with (((⟨c, hc, hr⟩ | ⟨c, hc, hr⟩) | ⟨c, hc, hr⟩) | ⟨c, hc, hr⟩) | ⟨c, hc, hr⟩
  · exact ⟨c, Relation.exists_stems_of_mem_ofFields hc hr⟩
  · exact ⟨c, Relation.exists_stems_of_mem_ofFields hc hr⟩
  · exact ⟨c, Relation.exists_stems_of_mem_ofMethods hc hr⟩
  · exact ⟨c, Relation.exists_stems_of_mem_ofFields hc hr⟩
  · exact ⟨c, Relation.exists_stems_of_mem_ofConstructor hc hr⟩

/-- The relationship that a field shows whose annotation is wrapped twice, and whose type is
imported. -/
theorem RelationReport.exists_stems_wrappedField :
    let o : Outline :=
      { language := .typescript
        path := "/a.ts"
        classes := [{ name := "A", properties := [{ name := "users", type := some "Promise<m.User[]>" }] }]
        imports := [{ source := "./user", specifiers := ["User"] }] }
    let r : Relation :=
      { source := "A", target := "User", kind := .aggregation, cardinality := some "*", line := 0
        context := "users", isExternal := true, sourceModule := some "./user" }
    r ∈ (ofOutline o).relations ∧ ∃ c written, r.Stems o c written := by
  intro o r
  have hmem : r ∈ (ofOutline o).relations := by decide +kernel
  exact ⟨hmem, exists_stems_of_mem hmem⟩

end CodeAtlas
