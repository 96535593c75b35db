import CodeAtlas.Outline.Python
import Mathlib.Data.List.Induction
import Mathlib.Data.List.Nodup

/-!
# Fields from assignments through `self`

A node that assigns to one attribute of `self` and to nothing else (`Python.AssignsOwn`) gives a field,
unless its name is taken (`Python.addInstanceAttribute_of_assigns`). Any other node gives none. So each
node of a list either adds its field to those that were added before it or leaves all as it is
(`Python.AddsFirst.concat_of_new`, `Python.AddsFirst.concat_of_known`), and by induction along the list
each name has one field, from the first node that assigns it (`Python.exists_addsFirst`).
-/

namespace CodeAtlas.Outline.Python

open Syntax

variable {n last : Node} {name : String} {parameters : List Parameter}
  {recorded added : List Property} {order : List Node}

/-! ## 1. One assignment -/

/-- **A node assigns to an attribute of `self` and to nothing else**: it reads `self.x = …`,
`self.x: T = …` or `self.x: T`. -/
def AssignsOwn (n : Node) (name : String) : Prop :=
  n.kind = "assignment" ∧ name ≠ "" ∧ ∃ left, n.field? "left" = some left ∧
    left.kind = "attribute" ∧ left.fieldText "object" = "self" ∧ left.fieldText "attribute" = name

/-- The type of the field that an assignment gives: its annotation, or that of the parameter which is
assigned, or what the value shows. -/
def ownType (parameters : List Parameter) (assignment : Node) : Option String :=
  let right := assignment.field? "right"
  let fromParameter := (right.filter (·.kind == "identifier")).bind fun value =>
    parameterType? parameters value.text
  ((typeText (assignment.field? "type")).or fromParameter).or (right.bind inferredType)

/-- **The field that an assignment gives** under a name. -/
def ownField (parameters : List Parameter) (assignment : Node) (name : String) : Property where
  name := name
  type := ownType parameters assignment
  visibility := visibilityOf name
  isArray := Annotation.describe (ownType parameters assignment) |>.1
  isClassType := Annotation.describe (ownType parameters assignment) |>.2
  isStatic := false
  isReadonly := (ownType parameters assignment).any fun type =>
    "Final".toList.isPrefixOf type.toList
  line := assignment.line

theorem AssignsOwn.unique {other : String} (h : AssignsOwn n name) (h' : AssignsOwn n other) :
    name = other := by
  obtain ⟨-, -, left, hleft, -, -, hname⟩ := h
  obtain ⟨-, -, left', hleft', -, -, hother⟩ := h'
  rw [hleft, Option.some_inj] at hleft'
  rw [← hname, ← hother, hleft']

theorem mem_map_name_iff : name ∈ recorded.map (·.name) ↔ recorded.any (·.name == name) = true := by
  simp [List.mem_map, List.any_eq_true]

/-- A field with a name is added unless the name is taken. -/
theorem addProperty_eq (h : name ≠ "") (type : Option String) (isStatic : Bool) (line : Int) :
    addProperty recorded name type isStatic line =
      if name ∈ recorded.map (·.name) then recorded
      else recorded ++
        [{ name, type, visibility := visibilityOf name
           isArray := Annotation.describe type |>.1
           isClassType := Annotation.describe type |>.2
           isStatic
           isReadonly := type.any fun type => "Final".toList.isPrefixOf type.toList
           line }] := by
  have hnamed : name.isEmpty = false := Bool.eq_false_iff.2 (mt String.isEmpty_iff.1 h)
  unfold addProperty
  rw [hnamed, Bool.false_or]
  by_cases htaken : name ∈ recorded.map (·.name)
  · rw [if_pos htaken, if_pos (mem_map_name_iff.1 htaken)]
  · rw [if_neg htaken, if_neg (mt mem_map_name_iff.2 htaken)]
    cases type with
    | none => rfl
    | some type => rfl

/-- An assignment through `self` adds its field, unless the name is taken. -/
theorem addInstanceAttribute_of_assigns (h : AssignsOwn n name) :
    addInstanceAttribute parameters recorded n =
      if name ∈ recorded.map (·.name) then recorded
      else recorded ++ [ownField parameters n name] := by
  obtain ⟨-, hne, left, hleft, hkind, hself, hname⟩ := h
  rw [addInstanceAttribute, hleft]
  dsimp only
  rw [hkind, hself, hname, if_pos (by decide), addProperty_eq hne, ownField, ownType]
  cases n.field? "right" with
  | none => rfl
  | some value =>
    dsimp only [Option.filter]
    by_cases hidentifier : (value.kind == "identifier") = true
    · rw [if_pos hidentifier, if_pos hidentifier]
      rfl
    · rw [if_neg hidentifier, if_neg hidentifier]
      rfl

/-- Any other assignment adds nothing. -/
theorem addInstanceAttribute_of_not (hkind : n.kind = "assignment")
    (h : ∀ name, ¬ AssignsOwn n name) : addInstanceAttribute parameters recorded n = recorded := by
  rw [addInstanceAttribute]
  cases hleft : n.field? "left" with
  | none => rfl
  | some left =>
    dsimp only
    by_cases hown : (left.kind == "attribute" && left.fieldText "object" == "self") = true
    · rw [if_pos hown]
      rw [Bool.and_eq_true, beq_iff_eq, beq_iff_eq] at hown
      -- only the name can be missing, and a field without a name is not added
      have hname : left.fieldText "attribute" = "" := by
        by_contra hne
        exact h _ ⟨hkind, hne, left, hleft, hown.1, hown.2, rfl⟩
      rw [hname]
      rfl
    · rw [if_neg hown]

/-! ## 2. All assignments -/

/-- **A field is taken from a place in a list of nodes**: the node there assigns its name through
`self`, no node before it does, and the field is the one that this node gives. -/
def IsTakenAt (parameters : List Parameter) (order : List Node) (place : Nat) (p : Property) : Prop :=
  ∃ n, order[place]? = some n ∧ AssignsOwn n p.name ∧ p = ownField parameters n p.name ∧
    ∀ earlier m, earlier < place → order[earlier]? = some m → ¬ AssignsOwn m p.name

/-- **Fields that the nodes of a list add to those that are recorded**: one for each name that is
assigned through `self` and not recorded, each from the first node that assigns its name, and in the
order of these nodes. -/
structure AddsFirst (parameters : List Parameter) (recorded : List Property) (order : List Node)
    (added : List Property) : Prop where
  nodup : (added.map (·.name)).Nodup
  mem_iff : ∀ name, name ∈ added.map (·.name) ↔
    name ∉ recorded.map (·.name) ∧ ∃ n ∈ order, AssignsOwn n name
  first : ∀ p ∈ added, ∃ place, IsTakenAt parameters order place p
  inOrder : added.Pairwise fun p q => ∃ i j, i < j ∧ IsTakenAt parameters order i p ∧
    IsTakenAt parameters order j q

variable {p : Property} {place : Nat}

theorem IsTakenAt.lt_length (h : IsTakenAt parameters order place p) : place < order.length := by
  obtain ⟨n, hn, -⟩ := h
  exact (List.getElem?_eq_some_iff.1 hn).1

/-- What comes later does not change where a field is taken from. -/
theorem IsTakenAt.concat (h : IsTakenAt parameters order place p) (last : Node) :
    IsTakenAt parameters (order ++ [last]) place p := by
  have hplace := h.lt_length
  obtain ⟨n, hn, hassigns, hfield, hfirst⟩ := h
  refine ⟨n, ?_, hassigns, hfield, ?_⟩
  · rw [List.getElem?_append_left hplace]
    exact hn
  · intro earlier m hearlier hm
    rw [List.getElem?_append_left (Nat.lt_trans hearlier hplace)] at hm
    exact hfirst earlier m hearlier hm

namespace AddsFirst

theorem nil : AddsFirst parameters recorded [] [] where
  nodup := List.nodup_nil
  mem_iff name := by simp
  first p hp := absurd hp List.not_mem_nil
  inOrder := List.Pairwise.nil

theorem first_concat (h : AddsFirst parameters recorded order added) (last : Node) :
    ∀ p ∈ added, ∃ place, IsTakenAt parameters (order ++ [last]) place p := by
  intro p hp
  obtain ⟨place, hplace⟩ := h.first p hp
  exact ⟨place, hplace.concat last⟩

theorem inOrder_concat (h : AddsFirst parameters recorded order added) (last : Node) :
    added.Pairwise fun p q => ∃ i j, i < j ∧ IsTakenAt parameters (order ++ [last]) i p ∧
      IsTakenAt parameters (order ++ [last]) j q := by
  refine h.inOrder.imp ?_
  rintro p q ⟨i, j, hij, hp, hq⟩
  exact ⟨i, j, hij, hp.concat last, hq.concat last⟩

/-- One node more that has no new name to give. -/
theorem concat_of_known (h : AddsFirst parameters recorded order added)
    (hknown : ∀ name, AssignsOwn last name → name ∈ (recorded ++ added).map (·.name)) :
    AddsFirst parameters recorded (order ++ [last]) added where
  nodup := h.nodup
  mem_iff name := by
    rw [h.mem_iff]
    refine and_congr_right fun hnew => ⟨?_, ?_⟩
    · rintro ⟨n, hn, hassigns⟩
      exact ⟨n, List.mem_append_left _ hn, hassigns⟩
    · rintro ⟨n, hn, hassigns⟩
      rcases List.mem_append.1 hn with hn | hlast
      · exact ⟨n, hn, hassigns⟩
      -- a name of the last node was given before
      · rw [List.mem_singleton.1 hlast] at hassigns
        have hold := hknown name hassigns
        rw [List.map_append, List.mem_append] at hold
        exact ((h.mem_iff name).1 (hold.resolve_left hnew)).2
  first := h.first_concat last
  inOrder := h.inOrder_concat last

/-- One node more that gives a new name. -/
theorem concat_of_new (h : AddsFirst parameters recorded order added)
    (hassigns : AssignsOwn last name) (hnew : name ∉ (recorded ++ added).map (·.name)) :
    AddsFirst parameters recorded (order ++ [last])
      (added ++ [ownField parameters last name]) := by
  rw [List.map_append, List.mem_append, not_or] at hnew
  have hlast : IsTakenAt parameters (order ++ [last]) order.length
      (ownField parameters last name) := by
    refine ⟨last, List.getElem?_concat_length, hassigns, rfl, ?_⟩
    intro earlier m hearlier hm hm'
    rw [List.getElem?_append_left hearlier] at hm
    -- a node before it that assigns the name would have given it
    exact hnew.2 ((h.mem_iff name).2 ⟨hnew.1, m, List.mem_of_getElem? hm, hm'⟩)
  refine ⟨?_, ?_, ?_, ?_⟩
  · rw [List.map_append]
    exact h.nodup.append (List.nodup_singleton name) (List.disjoint_singleton.2 hnew.2)
  · intro other
    rw [List.map_append, List.mem_append, h.mem_iff, List.map_singleton, List.mem_singleton]
    constructor
    · rintro (⟨hfree, n, hn, hother⟩ | rfl)
      · exact ⟨hfree, n, List.mem_append_left _ hn, hother⟩
      · exact ⟨hnew.1, last, List.mem_append_right _ (List.mem_singleton_self last), hassigns⟩
    · rintro ⟨hfree, n, hn, hother⟩
      rcases List.mem_append.1 hn with hn | hn
      · exact Or.inl ⟨hfree, n, hn, hother⟩
      · rw [List.mem_singleton.1 hn] at hother
        exact Or.inr (hother.unique hassigns)
  · intro p hp
    rcases List.mem_append.1 hp with hp | hp
    · exact h.first_concat last p hp
    · rw [List.mem_singleton.1 hp]
      exact ⟨order.length, hlast⟩
  · rw [List.pairwise_append]
    refine ⟨h.inOrder_concat last, List.pairwise_singleton _ _, ?_⟩
    intro p hp q hq
    obtain ⟨place, hplace⟩ := h.first p hp
    rw [List.mem_singleton.1 hq]
    exact ⟨place, order.length, hplace.lt_length, hplace.concat last, hlast⟩

end AddsFirst

/-- **The assignments among some nodes add what the nodes have to add.** -/
theorem exists_addsFirst (parameters : List Parameter) (recorded : List Property)
    (order : List Node) :
    ∃ added, (order.filter (·.kind == "assignment")).foldl (addInstanceAttribute parameters) recorded
        = recorded ++ added ∧ AddsFirst parameters recorded order added := by
  induction order using List.reverseRecOn with
  | nil => exact ⟨[], (List.append_nil recorded).symm, .nil⟩
  | append_singleton order last ih =>
    obtain ⟨added, hfold, hadds⟩ := ih
    rw [List.filter_append, List.foldl_append, hfold]
    by_cases hkind : last.kind = "assignment"
    · rw [List.filter_cons, if_pos (beq_iff_eq.2 hkind), List.filter_nil, List.foldl_cons,
        List.foldl_nil]
      by_cases hassigns : ∃ name, AssignsOwn last name
      · obtain ⟨name, hname⟩ := hassigns
        rw [addInstanceAttribute_of_assigns hname]
        by_cases htaken : name ∈ (recorded ++ added).map (·.name)
        · refine ⟨added, if_pos htaken, hadds.concat_of_known ?_⟩
          intro other hother
          rwa [hother.unique hname]
        · rw [if_neg htaken, List.append_assoc]
          exact ⟨_, rfl, hadds.concat_of_new hname htaken⟩
      · rw [not_exists] at hassigns
        rw [addInstanceAttribute_of_not hkind hassigns]
        exact ⟨added, rfl, hadds.concat_of_known fun name hname => absurd hname (hassigns name)⟩
    · rw [List.filter_cons, if_neg (mt beq_iff_eq.1 hkind), List.filter_nil, List.foldl_nil]
      exact ⟨added, rfl, hadds.concat_of_known fun name hname => absurd hname.1 hkind⟩

/-- Where the nodes do not go back to an earlier line, the fields do not either. -/
theorem AddsFirst.pairwise_line (h : AddsFirst parameters recorded order added)
    (hlines : order.Pairwise fun a b => a.line ≤ b.line) :
    added.Pairwise fun p q => p.line ≤ q.line := by
  refine h.inOrder.imp ?_
  rintro p q ⟨i, j, hij, ⟨n, hn, -, hp, -⟩, ⟨m, hm, -, hq, -⟩⟩
  obtain ⟨hi, hgeti⟩ := List.getElem?_eq_some_iff.1 hn
  obtain ⟨hj, hgetj⟩ := List.getElem?_eq_some_iff.1 hm
  have hle := List.pairwise_iff_getElem.1 hlines i j hi hj hij
  rw [hgeti, hgetj] at hle
  rw [hp, hq]
  exact Int.ofNat_le.2 hle

end CodeAtlas.Outline.Python
