import CodeAtlas.Proofs.Outline.Comment.Reader

/-!
# Comments in Java files

Three readers of Java declarations take the nearest node for a type without asking whether it is a
comment: the one of a superclass, the one of a list of types, and the one of a variable number of
arguments. `Java.readsComment` says where they come upon one. Everywhere else comments make no
difference, so that a tree without such places has the outline of the tree without its comments
(`Java.outline_withoutComments`).

Each reader has a lemma of its own, in the order of the readers; types in the bodies of types are
reached along the recursion of `Java.declared`.
-/

namespace CodeAtlas.Outline.Java

open Syntax Syntax.Node

/-! ## 1. Where a comment is read -/

/-- The node whose children a clause of types lists. -/
def listedTypes (clause : Node) : Node :=
  (clause.child? ["type_list"]).getD clause

/-- Whether a child of a parameter of variable length can be its type. -/
def isSpreadType (n : Node) : Bool :=
  n.kind != "modifiers" && n.kind != "variable_declarator"

/-- Whether a comment stands where a type may be read. -/
def readsComment (n : Node) : Bool :=
  (n.field? "superclass").any opensWithComment ||
    (n.field? "interfaces").any (fun clause => (listedTypes clause).holdsComment) ||
    (n.child? ["extends_interfaces"]).any (fun clause => (listedTypes clause).holdsComment) ||
    (n.kind == "spread_parameter" && (n.named.find? isSpreadType).any isComment)

/-- Whether no type in a tree is read from a comment. -/
def isClear (n : Node) : Bool :=
  n.everywhere fun m => !readsComment m

variable {n : Node}

/-- The four places of a node, each without a comment. -/
theorem places_of_isClear (h : isClear n = true) :
    (n.field? "superclass").any opensWithComment = false ∧
      (n.field? "interfaces").any (fun clause => (listedTypes clause).holdsComment) = false ∧
      (n.child? ["extends_interfaces"]).any (fun clause => (listedTypes clause).holdsComment)
        = false ∧
      (n.kind == "spread_parameter" && (n.named.find? isSpreadType).any isComment) = false := by
  have hnone := holds_of_everywhere h
  rw [readsComment, Bool.not_or, Bool.not_or, Bool.not_or] at hnone
  simpa only [Bool.and_eq_true, Bool.not_eq_true', and_assoc] using hnone

/-! ## 2. Pieces of declarations -/

theorem modifiers_withoutComments (n : Node) : modifiers n.withoutComments = modifiers n := by
  rw [modifiers, child?_withoutComments n (by decide), modifiers]
  cases n.child? ["modifiers"] with
  | none => rfl
  | some list =>
    have hkeywords := filter_withoutCommentsOf_of (p := fun l => !l.isNamed)
      (fun c hc => by rw [(isComment_iff.1 hc).2.1]; rfl) list.children
    rw [Option.map_some]
    dsimp only
    rw [children_withoutComments, hkeywords, List.map_map]
    exact List.map_congr_left fun c _ => c.kind_withoutComments

theorem typeText_withoutComments (type : Option Node) (declarator : Node) :
    typeText (type.map withoutComments) declarator.withoutComments = typeText type declarator := by
  rw [typeText, textOf_withoutComments, fieldText_withoutComments, typeText]

theorem listedTypes_withoutComments (clause : Node) :
    listedTypes clause.withoutComments = (listedTypes clause).withoutComments := by
  rw [listedTypes, child?_withoutComments clause (by decide), listedTypes]
  cases clause.child? ["type_list"] with
  | none => rfl
  | some list => rfl

/-- A list of types without a comment among them is read as before. -/
theorem typeList_withoutComments {clause : Option Node}
    (h : clause.any (fun clause => (listedTypes clause).holdsComment) = false) :
    typeList (clause.map withoutComments) = typeList clause := by
  cases clause with
  | none => rfl
  | some clause =>
    have hnone : ∀ c ∈ (listedTypes clause).named, c.isComment = false := by
      rw [Option.any_some, holdsComment, List.any_eq_false] at h
      exact fun c hc => Bool.eq_false_iff.2 (h c hc)
    rw [Option.map_some, typeList, typeList]
    change ((listedTypes clause.withoutComments).named.map fun type => typeHead type.text)
      = (listedTypes clause).named.map fun type => typeHead type.text
    rw [listedTypes_withoutComments, named_withoutComments, withoutCommentsOf_eq_map hnone,
      List.map_map]
    exact List.map_congr_left fun c _ => congrArg typeHead c.text_withoutComments

/-- The type of a parameter of variable length. -/
theorem find?_isSpreadType_withoutComments
    (h : (n.named.find? isSpreadType).any isComment = false) :
    n.withoutComments.named.find? isSpreadType
      = (n.named.find? isSpreadType).map withoutComments := by
  rw [named_withoutComments, ← List.head?_filter, ← List.head?_filter]
  rw [← List.head?_filter] at h
  have hfilter := filter_withoutCommentsOf
    (fun l => l.kind != "modifiers" && l.kind != "variable_declarator") n.named
  refine (congrArg List.head? hfilter).trans ?_
  rw [head?_withoutCommentsOf]
  exact congrArg (Option.map withoutComments) (find?_not_isComment h)

theorem parameter?_withoutComments (h : isClear n = true) :
    parameter? n.withoutComments = parameter? n := by
  rw [parameter?, parameter?, kind_withoutComments]
  split
  · rw [fieldText_withoutComments, field?_withoutComments, typeText_withoutComments]
  split
  · rename_i hspread
    have htype : (n.named.find? isSpreadType).any isComment = false := by
      have hplace := (places_of_isClear h).2.2.2
      rwa [hspread, Bool.true_and] at hplace
    have hname : textOf ((n.withoutComments.child? ["variable_declarator"]).bind (·.field? "name"))
        = textOf ((n.child? ["variable_declarator"]).bind (·.field? "name")) := by
      rw [child?_withoutComments n (by decide)]
      cases n.child? ["variable_declarator"] with
      | none => rfl
      | some declarator => exact declarator.fieldText_withoutComments "name"
    have htext : textOf (n.withoutComments.named.find? isSpreadType)
        = textOf (n.named.find? isSpreadType) := by
      rw [find?_isSpreadType_withoutComments htype, textOf_withoutComments]
    unfold isSpreadType at htext
    dsimp only
    rw [hname, htext]
  · rfl

theorem parameter?_of_isComment (h : n.isComment = true) : parameter? n = none := by
  rw [parameter?, kind_beq_of_isComment h (by decide), kind_beq_of_isComment h (by decide)]
  rfl

theorem parameters_withoutComments {name : String} (h : isClear n = true) :
    parameters (n.withoutComments.field? name) = parameters (n.field? name) :=
  listed_field?_withoutComments rfl (fun _ => rfl) (fun _ => parameter?_of_isComment)
    (fun _ => parameter?_withoutComments) h

/-! ## 3. Members -/

theorem properties_withoutComments (inInterface : Bool) (n : Node) :
    properties inInterface n.withoutComments = properties inInterface n := by
  rw [properties, kind_withoutComments, properties]
  split
  · rw [fieldProperties, fieldProperties, fields_withoutComments, List.map_map]
    refine List.map_congr_left fun declarator _ => ?_
    rw [Function.comp_apply]
    dsimp only
    rw [modifiers_withoutComments, field?_withoutComments, typeText_withoutComments,
      fieldText_withoutComments, line_withoutComments]
  · rfl

theorem properties_of_isComment (inInterface : Bool) (h : n.isComment = true) :
    properties inInterface n = [] := by
  rw [properties, kind_beq_of_isComment h (by decide), kind_beq_of_isComment h (by decide)]
  rfl

theorem method?_withoutComments (inInterface : Bool) (h : isClear n = true) :
    method? inInterface n.withoutComments = method? inInterface n := by
  rw [method?, kind_withoutComments, method?]
  split
  · dsimp only
    rw [modifiers_withoutComments, fieldText_withoutComments, fieldText_withoutComments,
      parameters_withoutComments h, line_withoutComments, field?_withoutComments,
      Option.isNone_map]
  · rfl

theorem method?_of_isComment (inInterface : Bool) (h : n.isComment = true) :
    method? inInterface n = none := by
  rw [method?, kind_beq_of_isComment h (by decide)]
  rfl

theorem addConstructor_withoutComments (known : Option (List Parameter)) (h : isClear n = true) :
    addConstructor known n.withoutComments = addConstructor known n := by
  rw [addConstructor, kind_withoutComments, addConstructor, parameters_withoutComments h]

theorem addConstructor_of_isComment (known : Option (List Parameter)) (h : n.isComment = true) :
    addConstructor known n = known := by
  rw [addConstructor, kind_beq_of_isComment h (by decide)]
  rfl

/-! ## 4. Types -/

theorem bodyMembers_withoutComments (n : Node) :
    bodyMembers n.withoutComments = withoutCommentsOf (bodyMembers n) := by
  rw [bodyMembers, field?_withoutComments, bodyMembers]
  cases n.field? "body" with
  | none => rfl
  | some body =>
    rw [Option.map_some, kind_withoutComments]
    dsimp only
    split
    · rw [child?_withoutComments body (by decide)]
      cases body.child? ["enum_body_declarations"] with
      | none => rfl
      | some declarations => exact declarations.named_withoutComments
    · exact body.named_withoutComments

theorem isClear_of_mem_bodyMembers {c : Node} (h : isClear n = true) (hc : c ∈ bodyMembers n) :
    isClear c = true := by
  rw [bodyMembers] at hc
  split at hc
  · exact absurd hc List.not_mem_nil
  · rename_i body hbody
    have hclear := everywhere_of_field? h hbody
    split at hc
    · split at hc
      · rename_i declarations hdeclarations
        exact everywhere_of_named (everywhere_of_child? hclear hdeclarations) hc
      · exact absurd hc List.not_mem_nil
    · exact everywhere_of_named hclear hc

theorem fields_bodyMembers (inInterface : Bool) (n : Node) :
    (bodyMembers n.withoutComments).flatMap (properties inInterface)
      = (bodyMembers n).flatMap (properties inInterface) := by
  rw [bodyMembers_withoutComments]
  exact flatMap_withoutCommentsOf (fun c hc => properties_of_isComment inInterface hc)
    fun c _ => properties_withoutComments inInterface c

section Members

variable (h : isClear n = true)
include h

theorem methods_bodyMembers (inInterface : Bool) :
    (bodyMembers n.withoutComments).filterMap (method? inInterface)
      = (bodyMembers n).filterMap (method? inInterface) := by
  rw [bodyMembers_withoutComments]
  exact filterMap_withoutCommentsOf (fun c hc => method?_of_isComment inInterface hc)
    fun c hc => method?_withoutComments inInterface (isClear_of_mem_bodyMembers h hc)

theorem constructors_bodyMembers (known : Option (List Parameter)) :
    (bodyMembers n.withoutComments).foldl addConstructor known
      = (bodyMembers n).foldl addConstructor known := by
  rw [bodyMembers_withoutComments]
  exact foldl_withoutCommentsOf (fun known c hc => addConstructor_of_isComment known hc)
    (fun known c hc => addConstructor_withoutComments known (isClear_of_mem_bodyMembers h hc)) known

/-- The base that a class names. -/
theorem base_withoutComments :
    ((n.withoutComments.field? "superclass").bind (·.named.head?)).map (fun type => typeHead type.text)
      = ((n.field? "superclass").bind (·.named.head?)).map fun type => typeHead type.text := by
  have hplace := (places_of_isClear h).1
  rw [field?_withoutComments]
  cases hclause : n.field? "superclass" with
  | none => rfl
  | some clause =>
    rw [hclause, Option.any_some] at hplace
    rw [Option.map_some, Option.bind_some, Option.bind_some, head?_named_withoutComments,
      firstElement?_eq_head? hplace, Option.map_map]
    refine congrArg (fun f => clause.named.head?.map f) (funext fun type => ?_)
    rw [Function.comp_apply, text_withoutComments]

theorem ownDeclared_withoutComments (path name : String) :
    ownDeclared path name n.withoutComments = ownDeclared path name n := by
  have hinterfaces : typeList (n.withoutComments.field? "interfaces")
      = typeList (n.field? "interfaces") := by
    rw [field?_withoutComments]
    exact typeList_withoutComments (places_of_isClear h).2.1
  have hbases : typeList (n.withoutComments.child? ["extends_interfaces"])
      = typeList (n.child? ["extends_interfaces"]) := by
    rw [child?_withoutComments n (by decide)]
    exact typeList_withoutComments (places_of_isClear h).2.2.1
  rw [ownDeclared, kind_withoutComments, ownDeclared]
  split
  · rw [interfaceDecl, interfaceDecl, fields_bodyMembers, methods_bodyMembers h, hbases,
      line_withoutComments]
  split
  · rw [recordDecl, recordDecl, fields_bodyMembers, methods_bodyMembers h,
      parameters_withoutComments h, constructors_bodyMembers h, hinterfaces, line_withoutComments]
  · rw [classDecl, classDecl, fields_bodyMembers, methods_bodyMembers h, constructors_bodyMembers h,
      base_withoutComments h, hinterfaces, line_withoutComments, kind_withoutComments,
      modifiers_withoutComments]

end Members

theorem declared_of_isComment (path : String) (h : n.isComment = true) : declared path n = {} := by
  rw [declared, isTypeDeclaration, contains_kind_of_isComment h (by decide)]
  rfl

/-- A type with a name declares what the types in its body declare, and itself. -/
theorem declared_of_name {path name : String} (htype : isTypeDeclaration n = true)
    (hname : nonempty? (n.fieldText "name") = some name) :
    declared path n
      = Declared.concat ((bodyMembers n).map (declared path)) ++ ownDeclared path name n := by
  have hmembers : ((bodyMembers n).attach.map fun member => declared path member.1)
      = (bodyMembers n).map (declared path) := List.attach_map_val
  rw [declared, if_pos htype, hname]
  exact congrArg (fun ds => Declared.concat ds ++ ownDeclared path name n) hmembers

theorem isTypeDeclaration_withoutComments (n : Node) :
    isTypeDeclaration n.withoutComments = isTypeDeclaration n := by
  rw [isTypeDeclaration, kind_withoutComments, isTypeDeclaration]

theorem declared_withoutComments (path : String) (n : Node) :
    isClear n = true → declared path n.withoutComments = declared path n := by
  -- through the types that stand in the bodies of types
  induction n using Java.declared.induct with
  | case1 n htype hname =>
    intro _
    rw [declared, declared, isTypeDeclaration_withoutComments, if_pos htype, if_pos htype,
      fieldText_withoutComments, hname]
  | case2 n htype name hname ih =>
    intro h
    have hmembers : Declared.concat ((bodyMembers n.withoutComments).map (declared path))
        = Declared.concat ((bodyMembers n).map (declared path)) := by
      rw [bodyMembers_withoutComments]
      exact Declared.concat_withoutCommentsOf (fun c hc => declared_of_isComment path hc)
        fun c hc => ih c hc (isClear_of_mem_bodyMembers h hc)
    rw [declared_of_name ((isTypeDeclaration_withoutComments n).trans htype)
        (by rw [fieldText_withoutComments, hname]),
      declared_of_name htype hname, hmembers, ownDeclared_withoutComments h]
  | case3 n htype =>
    intro _
    rw [declared, declared, isTypeDeclaration_withoutComments, if_neg htype, if_neg htype]

/-! ## 5. Files -/

theorem export?_withoutComments (n : Node) : export? n.withoutComments = export? n := by
  rw [export?, export?, isTypeDeclaration_withoutComments, kind_withoutComments,
    modifiers_withoutComments, fieldText_withoutComments, line_withoutComments]

theorem export?_of_isComment (h : n.isComment = true) : export? n = none := by
  rw [export?, isTypeDeclaration, contains_kind_of_isComment h (by decide)]
  rfl

theorem importOf?_withoutComments (capture : Capture Unit) :
    importOf? capture.withoutComments = importOf? capture := by
  rw [importOf?, importOf?, Capture.node_withoutComments, child?_withoutComments _ (by decide),
    child?_withoutComments _ (by decide), Option.map_map, Option.isSome_map]
  refine congrArg (fun f => Option.map f _) (funext fun path => ?_)
  rw [Function.comp_apply, text_withoutComments, line_withoutComments]

theorem imports_withoutComments (root : Node) :
    (root.withoutComments.captures importQuery).filterMap importOf?
      = (root.captures importQuery).filterMap importOf? := by
  have hcaptures : root.withoutComments.captures importQuery
      = (root.captures importQuery).map Capture.withoutComments :=
    captures_byKind_withoutComments root (by decide)
  rw [hcaptures, List.filterMap_map]
  exact List.filterMap_congr fun capture _ => importOf?_withoutComments capture

/-- **The outline of a Java file does not depend on comments** that no type is read from. -/
theorem outline_withoutComments (path : String) {root : Node} (h : isClear root = true) :
    outline path root.withoutComments
      = { outline path root with tree := some root.withoutComments } := by
  have hdeclared : Declared.concat (root.withoutComments.named.map (declared path))
      = Declared.concat (root.named.map (declared path)) :=
    Declared.concat_named_withoutComments (fun _ => declared_of_isComment path)
      (declared_withoutComments path) h
  have hexports : root.withoutComments.named.filterMap export? = root.named.filterMap export? := by
    rw [named_withoutComments]
    exact filterMap_withoutCommentsOf (fun c hc => export?_of_isComment hc)
      fun c _ => export?_withoutComments c
  rw [outline, outline, hdeclared, hexports, imports_withoutComments]

end CodeAtlas.Outline.Java
