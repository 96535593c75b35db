import CodeAtlas.Proofs.Outline.Comment.Java
import CodeAtlas.Proofs.Outline.TopLevel
import Mathlib.Data.List.Nodup

/-!
# Types nested in Java types

A Java type is reached from the top of its file through the bodies of the types around it
(`Java.TypeAt`). Which type it is is told by its place, the numbers of the members on the way, and
not by the node: two nodes of one text may be equal. `Java.placesIn` lists the types of a body with
their places, those of each member before the member itself, and the two facts that carry the file
are that it lists the types that are reached and nothing else (`Java.mem_placesIn`) and that the
reader of declarations makes a class of each of them, in this order (`Java.classes_declared_eq`). So
every type gives one class (`Java.recordsTypes_ofTree`).
-/

namespace CodeAtlas.Outline.Java

open Syntax

/-! ## 1. Types and their places -/

/-- **A named type**: a class, an interface, an enumeration or a record that has a name. -/
def IsNamedType (n : Node) : Prop :=
  isTypeDeclaration n = true ∧ n.fieldText "name" ≠ ""

instance (n : Node) : Decidable (IsNamedType n) :=
  inferInstanceAs (Decidable (_ ∧ _))

/-- **The body of a type** holds its members. In an enumeration they stand in a part of their own,
after the constants. -/
inductive BodyOf (type : Node) : Node → Prop
  | plain {body : Node} : type.kind ≠ "enum_declaration" → type.field? "body" = some body →
      BodyOf type body
  | enumeration {body declarations : Node} : type.kind = "enum_declaration" →
      type.field? "body" = some body → body.child? ["enum_body_declarations"] = some declarations →
      BodyOf type declarations

/-- **A type stands at a place** if it is one of the nodes, or stands in the body of a type among
them. The place has the number of the node to turn to at each step. -/
inductive TypeAt : List Node → List Nat → Node → Prop
  | here {nodes : List Node} {i : Nat} {type : Node} : nodes[i]? = some type → IsNamedType type →
      TypeAt nodes [i] type
  | inside {nodes : List Node} {i : Nat} {outer body type : Node} {place : List Nat} :
      nodes[i]? = some outer → IsNamedType outer → BodyOf outer body →
      TypeAt body.named place type → TypeAt nodes (i :: place) type

/-- **A place comes before another** if it lies below the other, or in an earlier branch where the
two part. -/
def ComesBefore (p q : List Nat) : Prop :=
  (q <+: p ∧ q ≠ p) ∨ ∃ (r : List Nat) (i j : Nat), i < j ∧ r ++ [i] <+: p ∧ r ++ [j] <+: q

/-- **Classes record the types of a file**: they are in step with the types that are reached from its
top, each taken once, in the order of their places; each class has the name and the line of its type
and the path of the file. -/
structure RecordsTypes (path : String) (root : Node) (types : List (List Nat × Node))
    (classes : List ClassDecl) : Prop where
  each : List.Forall₂ (fun type c => c.name = type.2.fieldText "name" ∧ c.line = type.2.line ∧
    c.path = path) types classes
  reached : ∀ place type, (place, type) ∈ types ↔ TypeAt root.named place type
  once : (types.map Prod.fst).Nodup
  ordered : (types.map Prod.fst).Pairwise ComesBefore

variable {path : String} {n type body : Node} {nodes : List Node} {place p q : List Nat}

/-! ## 2. The order of places -/

theorem comesBefore_nil (i : Nat) (p : List Nat) : ComesBefore (i :: p) [] :=
  Or.inl ⟨List.nil_prefix, (List.cons_ne_nil i p).symm⟩

theorem comesBefore_of_lt {i j : Nat} (h : i < j) (p q : List Nat) :
    ComesBefore (i :: p) (j :: q) :=
  Or.inr ⟨[], i, j, h, List.prefix_append [i] p, List.prefix_append [j] q⟩

theorem ComesBefore.cons (h : ComesBefore p q) (i : Nat) : ComesBefore (i :: p) (i :: q) := by
  rcases h with ⟨hbelow, hne⟩ | ⟨r, a, b, hab, hp, hq⟩
  · refine Or.inl ⟨List.cons_prefix_cons.2 ⟨rfl, hbelow⟩, fun heq => hne ?_⟩
    exact (List.cons.inj heq).2
  · exact Or.inr ⟨i :: r, a, b, hab, List.cons_prefix_cons.2 ⟨rfl, hp⟩,
      List.cons_prefix_cons.2 ⟨rfl, hq⟩⟩

theorem not_comesBefore_self (p : List Nat) : ¬ ComesBefore p p := by
  rintro (⟨-, hne⟩ | ⟨r, i, j, hij, hi, hj⟩)
  · exact hne rfl
  -- both branches are the one that the place itself takes after `r`
  · have heq : r ++ [i] = r ++ [j] :=
      (List.prefix_of_prefix_length_le hi hj (by simp)).eq_of_length (by simp)
    have hsame : i = j := by simpa using heq
    omega

/-! ## 3. The list of places -/

/-- The types in a node with their places from there: those in its body, and then itself. -/
def places (n : Node) : List (List Nat × Node) :=
  if IsNamedType n then
    ((bodyMembers n).attach.zipIdx.flatMap fun (⟨member, _⟩, i) =>
      (places member).map fun (place, type) => (i :: place, type)) ++ [([], n)]
  else []
termination_by n
decreasing_by exact sizeOf_lt_of_mem_bodyMembers (by assumption)

/-- The types among some nodes, and in their bodies, with their places. -/
def placesIn (nodes : List Node) : List (List Nat × Node) :=
  nodes.zipIdx.flatMap fun (n, i) => (places n).map fun (place, type) => (i :: place, type)

theorem places_of_isNamedType (h : IsNamedType n) :
    places n = placesIn (bodyMembers n) ++ [([], n)] := by
  have hmembers : (bodyMembers n).zipIdx
      = (bodyMembers n).attach.zipIdx.map fun x => (x.1.1, x.2) := by
    conv_lhs => rw [← List.attach_map_subtype_val (bodyMembers n), List.zipIdx_map]
    rfl
  rw [places, if_pos h, placesIn, hmembers, List.flatMap_map]

theorem places_of_not (h : ¬ IsNamedType n) : places n = [] := by
  rw [places, if_neg h]

theorem mem_placesIn_iff : (place, type) ∈ placesIn nodes ↔
    ∃ i rest n, place = i :: rest ∧ nodes[i]? = some n ∧ (rest, type) ∈ places n := by
  simp only [placesIn, List.mem_flatMap, List.mem_map, Prod.exists, Prod.mk.injEq,
    List.mem_zipIdx_iff_getElem?]
  constructor
  · rintro ⟨n, i, hn, rest, found, hfound, rfl, rfl⟩
    exact ⟨i, rest, n, rfl, hn, hfound⟩
  · rintro ⟨i, rest, n, rfl, hn, hfound⟩
    exact ⟨n, i, hn, rest, type, hfound, rfl, rfl⟩

theorem BodyOf.bodyMembers_eq (h : BodyOf n body) : bodyMembers n = body.named := by
  cases h with
  | plain hkind hbody => rw [bodyMembers, hbody]; exact if_neg (mt beq_iff_eq.1 hkind)
  | enumeration hkind hbody hpart =>
    rw [bodyMembers, hbody]
    dsimp only
    rw [if_pos (beq_iff_eq.2 hkind), hpart]

/-- A node with members has a body. -/
theorem exists_bodyOf (h : bodyMembers n ≠ []) : ∃ body, BodyOf n body := by
  unfold bodyMembers at h
  split at h
  · exact absurd rfl h
  · rename_i body hbody
    split at h
    · rename_i hkind
      split at h
      · rename_i declarations hpart
        exact ⟨declarations, .enumeration (beq_iff_eq.1 hkind) hbody hpart⟩
      · exact absurd rfl h
    · rename_i hkind
      exact ⟨body, .plain (mt beq_iff_eq.2 hkind) hbody⟩

/-- **The list has the types that are reached, and nothing else.** -/
theorem mem_placesIn : (place, type) ∈ placesIn nodes ↔ TypeAt nodes place type := by
  constructor
  · -- the place gets shorter from a node to its body
    induction place generalizing nodes with
    | nil =>
      intro h
      obtain ⟨i, rest, n, hplace, -⟩ := mem_placesIn_iff.1 h
      cases hplace
    | cons i rest ih =>
      intro h
      obtain ⟨j, rest', n, hplace, hn, hfound⟩ := mem_placesIn_iff.1 h
      cases hplace
      by_cases htype : IsNamedType n
      · rw [places_of_isNamedType htype, List.mem_append] at hfound
        rcases hfound with hinside | hself
        · obtain ⟨body, hbody⟩ := exists_bodyOf (n := n) fun hnone => by
            rw [hnone] at hinside
            exact absurd hinside List.not_mem_nil
          rw [hbody.bodyMembers_eq] at hinside
          exact .inside hn htype hbody (ih hinside)
        · cases List.mem_singleton.1 hself
          exact .here hn htype
      · rw [places_of_not htype] at hfound
        exact absurd hfound List.not_mem_nil
  · intro h
    induction h with
    | @here nodes i type htype hnamed =>
      refine mem_placesIn_iff.2 ⟨i, [], type, rfl, htype, ?_⟩
      rw [places_of_isNamedType hnamed]
      exact List.mem_append_right _ (List.mem_singleton_self _)
    | @inside nodes i outer body type place houter hnamed hbody _ ih =>
      refine mem_placesIn_iff.2 ⟨i, place, outer, rfl, houter, ?_⟩
      rw [places_of_isNamedType hnamed, hbody.bodyMembers_eq]
      exact List.mem_append_left _ ih

/-- If the places in each node are in order, so are those in a list of nodes. -/
theorem pairwise_placesIn_of (h : ∀ n ∈ nodes, (places n).Pairwise fun x y => ComesBefore x.1 y.1) :
    (placesIn nodes).Pairwise fun x y => ComesBefore x.1 y.1 := by
  have hnumbers : nodes.zipIdx.Pairwise fun a b => a.2 < b.2 := by
    have hrange := List.pairwise_lt_range' (s := 0) (n := nodes.length)
    rw [← List.zipIdx_map_snd, List.pairwise_map] at hrange
    exact hrange
  rw [placesIn, List.pairwise_flatMap]
  refine ⟨fun x hx => ?_, hnumbers.imp fun {x y} hxy a ha b hb => ?_⟩
  · obtain ⟨n, i⟩ := x
    rw [List.pairwise_map]
    exact (h n (List.fst_mem_of_mem_zipIdx hx)).imp fun hbefore => hbefore.cons i
  · obtain ⟨⟨p, s⟩, -, rfl⟩ := List.mem_map.1 ha
    obtain ⟨⟨q, t⟩, -, rfl⟩ := List.mem_map.1 hb
    exact comesBefore_of_lt hxy p q

theorem pairwise_places (n : Node) : (places n).Pairwise fun x y => ComesBefore x.1 y.1 := by
  by_cases h : IsNamedType n
  · rw [places_of_isNamedType h, List.pairwise_append]
    refine ⟨pairwise_placesIn_of fun m hm => pairwise_places m, List.pairwise_singleton _ _, ?_⟩
    rintro ⟨p, t⟩ hinside x hself
    obtain ⟨i, rest, m, rfl, -⟩ := mem_placesIn_iff.1 hinside
    rw [List.mem_singleton.1 hself]
    exact comesBefore_nil i rest
  · rw [places_of_not h]
    exact List.Pairwise.nil
termination_by n
decreasing_by exact sizeOf_lt_of_mem_bodyMembers hm

/-- **Types in bodies come first, and members keep their order.** -/
theorem pairwise_placesIn (nodes : List Node) :
    (placesIn nodes).Pairwise fun x y => ComesBefore x.1 y.1 :=
  pairwise_placesIn_of fun n _ => pairwise_places n

/-! ## 4. One class for each type -/

/-- The class that a type is recorded as. -/
def ownClass (path : String) (type : Node) : ClassDecl :=
  if type.kind == "interface_declaration" then
    (interfaceDecl path (type.fieldText "name") type).asClass
  else if type.kind == "record_declaration" then recordDecl path (type.fieldText "name") type
  else classDecl path (type.fieldText "name") type

theorem classes_ownDeclared (path : String) (type : Node) :
    (ownDeclared path (type.fieldText "name") type).classes = [ownClass path type] := by
  unfold ownDeclared ownClass
  split
  · rfl
  · split <;> rfl

theorem ownClass_spec (path : String) (type : Node) :
    (ownClass path type).name = type.fieldText "name" ∧ (ownClass path type).line = type.line ∧
      (ownClass path type).path = path := by
  unfold ownClass
  split
  · exact ⟨rfl, rfl, rfl⟩
  · split <;> exact ⟨rfl, rfl, rfl⟩

/-- If the classes of each node are those of its places, so are the classes of a list of nodes. -/
theorem flatMap_declared_of
    (h : ∀ n ∈ nodes, (declared path n).classes = (places n).map fun x => ownClass path x.2) :
    nodes.flatMap (fun n => (declared path n).classes)
      = (placesIn nodes).map fun x => ownClass path x.2 := by
  have hnumbered : nodes.flatMap (fun n => (declared path n).classes)
      = nodes.zipIdx.flatMap fun x => (declared path x.1).classes := by
    conv_lhs => rw [← List.zipIdx_map_fst 0 nodes, List.flatMap_map]
  rw [hnumbered, placesIn, List.map_flatMap]
  refine List.flatMap_congr fun x hx => ?_
  rw [h x.1 (List.fst_mem_of_mem_zipIdx hx), List.map_map]
  rfl

/-- **A node declares a class for each type in it.** -/
theorem classes_declared_eq (path : String) (n : Node) :
    (declared path n).classes = (places n).map fun x => ownClass path x.2 := by
  by_cases h : IsNamedType n
  · have hown : (declared path n).classes
        = (bodyMembers n).flatMap (fun m => (declared path m).classes) ++ [ownClass path n] := by
      rw [declared_of_name h.1 (nonempty?_of_ne h.2), ← classes_ownDeclared, ← List.flatMap_map,
        ← Declared.classes_concat]
      rfl
    rw [hown, flatMap_declared_of fun m hm => classes_declared_eq path m, places_of_isNamedType h,
      List.map_append, List.map_singleton]
  · rw [places_of_not h, List.map_nil, declared]
    split
    · rename_i htype
      have hempty : n.fieldText "name" = "" := not_not.1 fun hne => h ⟨htype, hne⟩
      rw [hempty]
      rfl
    · rfl
termination_by n
decreasing_by exact sizeOf_lt_of_mem_bodyMembers hm

/-- The classes of a file are those of the types that are reached from its top. -/
theorem classes_outline (path : String) (root : Node) :
    (ofSoundTree .java path root).classes
      = (placesIn root.named).map fun x => ownClass path x.2 := by
  rw [classes_ofSoundTree]
  exact flatMap_declared_of fun n _ => classes_declared_eq path n

/-- **Every Java type is recorded once.** A tree without faults has an outline with one class for each
type that is reached through the bodies of named types, and with no other; a nested type comes before
the one around it, and types side by side keep their order. -/
theorem recordsTypes_ofTree {root : Node} (h : root.firstFault? = none) :
    ∃ o, ofTree .java path root = .ok o ∧ ∃ types, RecordsTypes path root types o.classes := by
  have hordered : ((placesIn root.named).map Prod.fst).Pairwise ComesBefore :=
    List.pairwise_map.2 (pairwise_placesIn root.named)
  refine ⟨_, ofTree_of_sound h, placesIn root.named,
    { each := ?_
      reached := fun place type => mem_placesIn
      once := ?_
      ordered := hordered }⟩
  · rw [classes_outline, List.forall₂_map_right_iff, List.forall₂_same]
    exact fun x _ => ownClass_spec path x.2
  · refine hordered.imp fun {p q} hbefore => ?_
    rintro rfl
    exact not_comesBefore_self p hbefore

/-! ## 5. Classes in an enumeration -/

/-- A class without members in the tree of `enum E { X; class B {} class C {} }`. -/
def emptyClass (id start : Nat) : Node :=
  let rule := (Source.ofString "enum E \x7b X; class B \x7b\x7d class C \x7b\x7d \x7d").rule
  let token := (Source.ofString "enum E \x7b X; class B \x7b\x7d class C \x7b\x7d \x7d").token
  rule id "class_declaration" none start (start + 10)
    [token (id + 1) "class" start (start + 5),
      rule (id + 2) "identifier" (some "name") (start + 6) (start + 7) [],
      rule (id + 3) "class_body" (some "body") (start + 8) (start + 10)
        [token (id + 4) "\x7b" (start + 8) (start + 9),
          token (id + 5) "\x7d" (start + 9) (start + 10)]]

/-- The enumeration of that tree. -/
def enumerationOfClasses : Node :=
  let rule := (Source.ofString "enum E \x7b X; class B \x7b\x7d class C \x7b\x7d \x7d").rule
  let token := (Source.ofString "enum E \x7b X; class B \x7b\x7d class C \x7b\x7d \x7d").token
  rule 1 "enum_declaration" none 0 36
    [token 2 "enum" 0 4, rule 3 "identifier" (some "name") 5 6 [],
      rule 4 "enum_body" (some "body") 7 36
        [token 5 "\x7b" 7 8,
          rule 6 "enum_constant" none 9 10 [rule 7 "identifier" (some "name") 9 10 []],
          rule 8 "enum_body_declarations" none 10 34
            [token 9 ";" 10 11, emptyClass 10 12, emptyClass 16 23],
          token 22 "\x7d" 35 36]]

/-- The tree of `enum E { X; class B {} class C {} }`. -/
def classesInEnumeration : Node :=
  (Source.ofString "enum E \x7b X; class B \x7b\x7d class C \x7b\x7d \x7d").rule 0 "program" none 0 36
    [enumerationOfClasses]

theorem places_emptyClass (id start : Nat) (h : IsNamedType (emptyClass id start)) :
    places (emptyClass id start) = [([], emptyClass id start)] := by
  rw [places_of_isNamedType h]
  rfl

/-- Both classes come before the enumeration, the first one first. -/
theorem recordsTypes_ofTree_classesInEnumeration :
    classesInEnumeration.firstFault? = none ∧
      ∃ o, ofTree .java "/E.java" classesInEnumeration = .ok o ∧
        o.classes.map (·.name) = ["B", "C", "E"] ∧
        ∃ types, RecordsTypes "/E.java" classesInEnumeration types o.classes := by
  have hsound : classesInEnumeration.firstFault? = none :=
    Option.isNone_iff_eq_none.1 (by decide +kernel)
  obtain ⟨o, htree, htypes⟩ := @recordsTypes_ofTree "/E.java" classesInEnumeration hsound
  refine ⟨hsound, o, htree, ?_, htypes⟩
  have hplaces : placesIn classesInEnumeration.named
      = [([0, 0], emptyClass 10 12), ([0, 1], emptyClass 16 23), ([0], enumerationOfClasses)] := by
    have hinside : placesIn (bodyMembers enumerationOfClasses)
        = [([0], emptyClass 10 12), ([1], emptyClass 16 23)] := by
      change (places (emptyClass 10 12)).map _ ++ ((places (emptyClass 16 23)).map _ ++ []) = _
      rw [places_emptyClass 10 12 (by decide +kernel), places_emptyClass 16 23 (by decide +kernel)]
      rfl
    change (places enumerationOfClasses).map _ ++ [] = _
    rw [places_of_isNamedType (by decide +kernel), hinside]
    rfl
  rw [ofTree_of_sound hsound] at htree
  rw [← Except.ok.inj htree, classes_outline, hplaces]
  decide +kernel

end CodeAtlas.Outline.Java
