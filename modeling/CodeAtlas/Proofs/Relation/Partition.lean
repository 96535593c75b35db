import CodeAtlas.Relation.Extraction
import Mathlib.Data.List.Basic

/-!
# Every field shows one relationship at most

Compositions, aggregations and associations are extracted one after the other, and each extraction
goes through all fields and asks for itself whether a field counts. What they ask overlaps in the
visibility of the field and in whether it belongs to the class or to an object. All the same a field
with a class type is of exactly one of four forms (`ClassField.count_forms`): three of them give one
relationship each, and the fourth, a single value that is protected and static, gives none. So the
three lists divide up the fields of a file that are not of the fourth form
(`RelationReport.partitions_ofOutline`).
-/

namespace CodeAtlas

/-- Lists of items of two kinds that exclude each other make up the list of both. -/
theorem perm_filter_or {α : Type} {p q : α → Bool} (h : ∀ a, p a = true → q a = false)
    (items : List α) :
    (items.filter p ++ items.filter q).Perm (items.filter fun a => p a || q a) := by
  have hp : (items.filter fun a => p a || q a).filter p = items.filter p := by
    rw [List.filter_filter]
    exact List.filter_congr fun a _ => by cases p a <;> rfl
  have hq : (items.filter fun a => p a || q a).filter (fun a => !p a) = items.filter q := by
    rw [List.filter_filter]
    refine List.filter_congr fun a _ => ?_
    cases hpa : p a with
    | true => exact (h a hpa).symm
    | false => rfl
  rw [← hp, ← hq]
  exact List.filter_append_perm p _

/-! ## 1. Forms of fields -/

/-- A field of a class whose annotation comes down to a declared type. -/
structure ClassField where
  owner : ClassDecl
  property : Property
  type : ResolvedType

namespace ClassField

/-- It holds many. -/
def IsCollection (f : ClassField) : Prop :=
  f.type.isArray = true

/-- It holds one, and is private or belongs to an object. -/
def IsPart (f : ClassField) : Prop :=
  f.type.isArray = false ∧ (f.property.visibility = .priv ∨ f.property.isStatic = false)

/-- It holds one, is public and belongs to the class. -/
def IsOffer (f : ClassField) : Prop :=
  f.type.isArray = false ∧ f.property.visibility = .pub ∧ f.property.isStatic = true

/-- It holds one, is protected and belongs to the class. -/
def IsReserve (f : ClassField) : Prop :=
  f.type.isArray = false ∧ f.property.visibility = .prot ∧ f.property.isStatic = true

instance (f : ClassField) : Decidable f.IsCollection :=
  inferInstanceAs (Decidable (_ = _))

instance (f : ClassField) : Decidable f.IsPart :=
  inferInstanceAs (Decidable (_ ∧ _))

instance (f : ClassField) : Decidable f.IsOffer :=
  inferInstanceAs (Decidable (_ ∧ _))

instance (f : ClassField) : Decidable f.IsReserve :=
  inferInstanceAs (Decidable (_ ∧ _))

/-- **Every field is of exactly one of the four forms.** -/
theorem count_forms (f : ClassField) :
    [decide f.IsCollection, decide f.IsPart, decide f.IsOffer, decide f.IsReserve].count true
      = 1 := by
  cases harray : f.type.isArray <;> cases hvisibility : f.property.visibility <;>
    cases hstatic : f.property.isStatic <;>
      simp [IsCollection, IsPart, IsOffer, IsReserve, harray, hvisibility, hstatic]

/-- The relationship that a field shows. -/
def relation (kind : RelationKind) (cardinality : String) (f : ClassField) : Relation :=
  .between f.owner f.type kind (some cardinality) f.property.line f.property.name

section Exclusion

variable {f : ClassField}

theorem IsPart.not_isCollection (h : f.IsPart) : ¬ f.IsCollection :=
  Bool.eq_false_iff.1 h.1

theorem IsOffer.not_isCollection (h : f.IsOffer) : ¬ f.IsCollection :=
  Bool.eq_false_iff.1 h.1

theorem IsPart.not_isOffer (h : f.IsPart) : ¬ f.IsOffer := by
  rintro ⟨-, hpublic, hstatic⟩
  rcases h.2 with hprivate | hown
  · rw [hpublic] at hprivate
    cases hprivate
  · rw [hstatic] at hown
    cases hown

/-- What is no reserve is of one of the other forms. -/
theorem not_isReserve_iff : ¬ f.IsReserve ↔ (f.IsPart ∨ f.IsCollection) ∨ f.IsOffer := by
  cases harray : f.type.isArray <;> cases hvisibility : f.property.visibility <;>
    cases hstatic : f.property.isStatic <;>
      simp [IsCollection, IsPart, IsOffer, IsReserve, harray, hvisibility, hstatic]

end Exclusion

/-- **Parts, collections and offers together are all fields but the reserves.** -/
theorem perm_forms (fields : List ClassField) :
    (fields.filter (·.IsPart) ++ fields.filter (·.IsCollection) ++ fields.filter (·.IsOffer)).Perm
      (fields.filter fun f => ¬ f.IsReserve) := by
  -- parts and collections first, then the offers beside both
  have hfirst := perm_filter_or (p := fun f : ClassField => decide f.IsPart)
    (q := fun f => decide f.IsCollection)
    (fun f hpart => decide_eq_false (of_decide_eq_true hpart).not_isCollection) fields
  have hall := perm_filter_or
    (p := fun f : ClassField => decide f.IsPart || decide f.IsCollection)
    (q := fun f => decide f.IsOffer)
    (fun f hother => decide_eq_false fun hoffer => by
      rcases Bool.or_eq_true_iff.1 hother with hpart | hcollection
      · exact (of_decide_eq_true hpart).not_isOffer hoffer
      · exact hoffer.not_isCollection (of_decide_eq_true hcollection)) fields
  refine ((hfirst.append_right _).trans hall).trans (List.Perm.of_eq ?_)
  exact List.filter_congr fun f _ => by simp [not_isReserve_iff]

/-! ## 2. Extractions -/

section Conditions

variable {f : ClassField}

theorem isShown_composition_iff :
    Relation.isShown .composition f.property f.type = true ↔ f.IsPart := by
  simp [Relation.isShown, IsPart]

theorem isShown_aggregation_iff :
    Relation.isShown .aggregation f.property f.type = true ↔ f.IsCollection :=
  Iff.rfl

theorem isShown_association_iff :
    Relation.isShown .association f.property f.type = true ↔ f.IsOffer := by
  simp [Relation.isShown, IsOffer]

end Conditions

/-- The fields of a class whose annotations come down to declared types, in order. -/
def ofClass (imports : List Import) (c : ClassDecl) : List ClassField :=
  c.properties.filterMap fun p =>
    (ResolvedType.classType? imports p.type).map fun type => ⟨c, p, type⟩

/-- **Each extraction takes the fields that it asks for**, in order. -/
theorem ofFields_eq (kind : RelationKind) (imports : List Import) (c : ClassDecl) :
    Relation.ofFields kind imports c
      = ((ofClass imports c).filter fun f => Relation.isShown kind f.property f.type).map
          (relation kind (Relation.fieldCardinality kind)) := by
  rw [Relation.ofFields, ofClass, List.filter_filterMap, List.map_filterMap]
  refine List.filterMap_congr fun p _ => ?_
  cases ResolvedType.classType? imports p.type with
  | none => rfl
  | some type =>
    rw [Option.map_some, Option.filter_some]
    dsimp only
    split
    · rfl
    · rfl

end ClassField

/-- The fields of a file whose annotations come down to declared types, class by class. -/
def Outline.classFields (o : Outline) : List ClassField :=
  o.classes.flatMap (ClassField.ofClass o.imports)

/-! ## 3. Files -/

/-- **Each list holds the fields of a form**, if that is what its extraction asks for. -/
theorem Outline.flatMap_ofFields (o : Outline) {kind : RelationKind} {form : ClassField → Prop}
    [DecidablePred form]
    (hform : ∀ f : ClassField, Relation.isShown kind f.property f.type = true ↔ form f) :
    o.classes.flatMap (Relation.ofFields kind o.imports)
      = (o.classFields.filter fun f => form f).map
          (ClassField.relation kind (Relation.fieldCardinality kind)) := by
  have hshown : (fun f : ClassField => Relation.isShown kind f.property f.type)
      = fun f => decide (form f) :=
    funext fun f => Bool.eq_iff_iff.2 ((hform f).trans decide_eq_true_iff.symm)
  rw [classFields, List.filter_flatMap, List.map_flatMap, ← hshown]
  exact List.flatMap_congr fun c _ => ClassField.ofFields_eq kind o.imports c

/-- **The relationships of fields divide up the fields**: the lists are those of the parts, of the
collections and of the offers, in order, and every field but the reserves is in one of them. -/
structure RelationReport.Partitions (report : RelationReport) (fields : List ClassField) :
    Prop where
  compositions : report.compositions
    = (fields.filter (·.IsPart)).map (·.relation .composition "1")
  aggregations : report.aggregations
    = (fields.filter (·.IsCollection)).map (·.relation .aggregation "*")
  associations : report.associations
    = (fields.filter (·.IsOffer)).map (·.relation .association "1")
  one_form : ∀ f ∈ fields,
    [decide f.IsCollection, decide f.IsPart, decide f.IsOffer, decide f.IsReserve].count true = 1
  perm : (fields.filter (·.IsPart) ++ fields.filter (·.IsCollection) ++
    fields.filter (·.IsOffer)).Perm (fields.filter fun f => ¬ f.IsReserve)
  length_add : report.compositions.length + report.aggregations.length +
    report.associations.length = (fields.filter fun f => ¬ f.IsReserve).length

/-- **The relationships of fields divide up the fields of every file.** -/
theorem RelationReport.partitions_ofOutline (o : Outline) :
    (ofOutline o).Partitions o.classFields := by
  have hcompositions : (ofOutline o).compositions
      = (o.classFields.filter (·.IsPart)).map (·.relation .composition "1") :=
    o.flatMap_ofFields fun _ => ClassField.isShown_composition_iff
  have haggregations : (ofOutline o).aggregations
      = (o.classFields.filter (·.IsCollection)).map (·.relation .aggregation "*") :=
    o.flatMap_ofFields fun _ => ClassField.isShown_aggregation_iff
  have hassociations : (ofOutline o).associations
      = (o.classFields.filter (·.IsOffer)).map (·.relation .association "1") :=
    o.flatMap_ofFields fun _ => ClassField.isShown_association_iff
  refine
    { compositions := hcompositions
      aggregations := haggregations
      associations := hassociations
      one_form := fun f _ => f.count_forms
      perm := ClassField.perm_forms _
      length_add := ?_ }
  rw [hcompositions, haggregations, hassociations, List.length_map, List.length_map,
    List.length_map, ← (ClassField.perm_forms _).length_eq, List.length_append, List.length_append]

end CodeAtlas
