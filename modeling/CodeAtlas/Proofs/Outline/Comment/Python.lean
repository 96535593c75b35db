import CodeAtlas.Proofs.Outline.Comment.Reader

/-!
# Comments in Python files

Two readers of Python declarations take the nearest node without asking whether it is a comment: the
one of the name of a parameter with a type, and the one that infers the type of a field from the
first element of a list. `Python.readsComment` says where they come upon one. Everywhere else
comments make no difference (`Python.outline_withoutComments`).

Fields are read from the statements of a class body and from the assignments in `__init__`;
`Python.fieldAssignments` lists the assignments that may give one.
-/

namespace CodeAtlas.Outline.Python

open Syntax Syntax.Node

/-! ## 1. Where a comment is read -/

/-- Whether the type that a value shows has a comment in front. -/
def hidesType (value : Node) : Bool :=
  hidesElement "list" (fun element => (inferredType element).isSome) value

/-- Whether the type of a field is read from a value that hides it. -/
def hidesField (assignment : Node) : Bool :=
  (typeText (assignment.field? "type")).isNone && (assignment.field? "right").any hidesType

/-- The assignments to attributes of `self` in the body of a function, without those in functions and
classes inside it. -/
def selfAssignments (init : Node) : List Node :=
  match init.field? "body" with
  | none => []
  | some body =>
    (body.descendants fun n => n.kind == "function_definition" || n.kind == "class_definition").filter
      fun n => n.kind == "assignment" && (n.field? "left").any fun left =>
        left.kind == "attribute" && left.fieldText "object" == "self"

/-- The assignments that a statement of a class body gives fields by. -/
def statementAssignments (statement : Node) : List Node :=
  let definition := (undecorated statement).2
  if definition.kind == "function_definition" then
    if definition.fieldText "name" == "__init__" then selfAssignments definition else []
  else if definition.kind == "expression_statement" then
    (definition.child? ["assignment"]).toList.filter fun n =>
      (n.field? "left").any (·.kind == "identifier")
  else []

/-- The assignments that give the fields of a class. -/
def fieldAssignments (node : Node) : List Node :=
  match node.field? "body" with
  | none => []
  | some body => body.named.flatMap statementAssignments

/-- Whether a comment stands where a name is read or where the type of a field is inferred. -/
def readsComment (n : Node) : Bool :=
  (n.kind == "typed_parameter" && n.opensWithComment) ||
    (n.kind == "class_definition" && (fieldAssignments n).any hidesField)

/-- Whether nothing in a tree is read from a comment. -/
def isClear (n : Node) : Bool :=
  n.everywhere fun m => !readsComment m

variable {n : Node}

theorem places_of_isClear (h : isClear n = true) :
    (n.kind == "typed_parameter" && n.opensWithComment) = false ∧
      (n.kind == "class_definition" && (fieldAssignments n).any hidesField) = false := by
  have hnone := holds_of_everywhere h
  rw [readsComment, Bool.not_or] at hnone
  simpa only [Bool.and_eq_true, Bool.not_eq_true'] using hnone

/-! ## 2. Pieces of declarations -/

theorem typeText_withoutComments (node : Option Node) :
    typeText (node.map withoutComments) = typeText node := by
  cases node with
  | none => rfl
  | some node => rw [Option.map_some, typeText, text_withoutComments, typeText]

theorem parameterName_withoutComments (node : Option Node) :
    parameterName (node.map withoutComments) = parameterName node := by
  cases node with
  | none => rfl
  | some node =>
    rw [Option.map_some, parameterName, kind_withoutComments, child?_withoutComments node (by decide),
      textOf_withoutComments, text_withoutComments, parameterName]

theorem parameter?_withoutComments (h : isClear n = true) :
    parameter? n.withoutComments = parameter? n := by
  rw [parameter?, parameter?, kind_withoutComments]
  split
  · rw [text_withoutComments]
  split
  · rename_i htyped
    have hplace := (places_of_isClear h).1
    rw [htyped, Bool.true_and] at hplace
    rw [head?_named_withoutComments, firstElement?_eq_head? hplace, parameterName_withoutComments,
      field?_withoutComments, typeText_withoutComments]
  split
  · rw [fieldText_withoutComments, field?_withoutComments, typeText_withoutComments]
  split
  · exact congrArg (fun name => some { name, isOptional := true : Parameter })
      (parameterName_withoutComments (some n))
  · rfl

theorem parameter?_of_isComment (h : n.isComment = true) : parameter? n = none := by
  simp (disch := decide) only [parameter?, kind_beq_of_isComment h, Bool.or_self,
    Bool.false_eq_true, if_false]

theorem parameters_withoutComments {name : String} (h : isClear n = true) :
    parameters (n.withoutComments.field? name) = parameters (n.field? name) :=
  listed_field?_withoutComments rfl (fun _ => rfl) (fun _ => parameter?_of_isComment)
    (fun _ => parameter?_withoutComments) h

/-- The decorators stay, and the definition loses its comments. -/
theorem undecorated_withoutComments (n : Node) :
    undecorated n.withoutComments = ((undecorated n).1, (undecorated n).2.withoutComments) := by
  have hdecorators := filter_withoutCommentsOf_of (p := fun l => l.kind == "decorator")
    (fun c hc => kind_beq_of_isComment hc (by decide)) n.named
  rw [undecorated, kind_withoutComments, undecorated]
  split
  · dsimp only
    rw [named_withoutComments, field?_withoutComments, Option.getD_map]
    refine congrArg (fun names => (names, _)) ((congrArg _ hdecorators).trans ?_)
    rw [List.map_map]
    refine List.map_congr_left fun decorator _ => ?_
    rw [Function.comp_apply, text_withoutComments]
  · rfl

/-- What holds everywhere below a statement holds everywhere below the definition in it. -/
theorem everywhere_undecorated {p : Node → Bool} (h : n.everywhere p = true) :
    (undecorated n).2.everywhere p = true := by
  rw [undecorated]
  split
  · dsimp only
    cases hdefinition : n.field? "definition" with
    | none => exact h
    | some definition => exact everywhere_of_field? h hdefinition
  · exact h

theorem undecorated_of_isComment (h : n.isComment = true) : undecorated n = ([], n) := by
  rw [undecorated, kind_beq_of_isComment h (by decide)]
  rfl

theorem base?_withoutComments (n : Node) : base? n.withoutComments = base? n := by
  rw [base?, kind_withoutComments, fieldText_withoutComments, fieldText_withoutComments,
    field?_withoutComments, Option.getD_map, base?]
  split
  · rfl
  · dsimp only
    split
    · rw [kind_withoutComments, text_withoutComments]
    · rw [kind_withoutComments, text_withoutComments]

theorem base?_of_isComment (h : n.isComment = true) : base? n = none := by
  simp (disch := decide) only [base?, kind_beq_of_isComment h, Bool.or_self, Bool.false_eq_true,
    if_false]

/-! ## 3. Types that values show -/

section Values

variable {value : Node}

theorem inferredType_of_list (h : (value.kind == "list") = true) :
    inferredType value = value.named.head?.bind fun element =>
      (inferredType element).bind fun type => some (type ++ "[]") := by
  rw [inferredType, if_neg (by rw [eq_of_beq h]; decide), if_pos h]
  split
  · rename_i element rest hnamed
    rw [hnamed, List.head?_cons, Option.bind_some, Option.map_eq_bind]
    rfl
  · rename_i hnamed
    rw [hnamed]
    rfl

theorem inferredType_of_comprehension (h : (value.kind == "list_comprehension") = true) :
    inferredType value
      = (value.field? "body").bind fun body => (inferredType body).map (· ++ "[]") := by
  rw [inferredType, if_neg (by rw [eq_of_beq h]; decide), if_neg (by rw [eq_of_beq h]; decide),
    if_pos h]
  split
  · rename_i body hbody
    rw [hbody]
    rfl
  · rename_i hbody
    rw [hbody]
    rfl

/-- Of other values only the function of a call is read. -/
theorem inferredType_withoutComments_of_not (hlist : ¬ (value.kind == "list") = true)
    (hcomprehension : ¬ (value.kind == "list_comprehension") = true) :
    inferredType value.withoutComments = inferredType value := by
  rw [inferredType, inferredType, kind_withoutComments, if_neg hlist, if_neg hcomprehension,
    if_neg hlist, if_neg hcomprehension, field?_withoutComments]
  cases value.field? "function" with
  | none => rfl
  | some function =>
    rw [Option.map_some]
    dsimp only
    rw [text_withoutComments, kind_withoutComments]

theorem inferredType_of_isComment (h : value.isComment = true) : inferredType value = none := by
  rw [inferredType, kind_beq_of_isComment h (by decide), kind_beq_of_isComment h (by decide),
    kind_beq_of_isComment h (by decide)]
  rfl

theorem infersElements : InfersElements inferredType "list"
    (fun element => (inferredType element).isSome) fun type => some (type ++ "[]") where
  comment _ := inferredType_of_isComment
  list _ := inferredType_of_list
  hidden element h := by
    rw [Option.isSome_eq_false_iff, Option.isNone_iff_eq_none] at h
    rw [h, Option.bind_none]
  rest value hlist hbody := by
    by_cases hcomprehension : (value.kind == "list_comprehension") = true
    · rw [inferredType_of_comprehension hcomprehension,
        inferredType_of_comprehension ((kind_withoutComments value).symm ▸ hcomprehension),
        field?_withoutComments, Option.bind_map]
      refine Option.bind_congr fun body hb => ?_
      rw [Function.comp_apply, hbody hcomprehension body hb]
    · exact inferredType_withoutComments_of_not hlist hcomprehension

end Values

/-! ## 4. Fields -/

/-- What an assignment without an annotation shows. -/
theorem shownType_withoutComments {a : Node} (h : hidesField a = false)
    (htype : typeText (a.field? "type") = none) :
    ((a.field? "right").map withoutComments).bind inferredType
      = (a.field? "right").bind inferredType := by
  rw [hidesField, htype, Option.isNone_none, Bool.true_and, Option.any_eq_false] at h
  cases hright : a.field? "right" with
  | none => rfl
  | some value => exact infersElements.withoutComments value (h value hright)

theorem addClassAttribute_withoutComments (properties : List Property) {statement : Node}
    (h : ∀ a, statement.child? ["assignment"] = some a →
      (a.field? "left").any (·.kind == "identifier") = true → hidesField a = false) :
    addClassAttribute properties statement.withoutComments
      = addClassAttribute properties statement := by
  rw [addClassAttribute, child?_withoutComments statement (by decide), addClassAttribute]
  cases hassignment : statement.child? ["assignment"] with
  | none => rfl
  | some a =>
    rw [Option.map_some]
    dsimp only
    rw [field?_withoutComments]
    cases hleft : a.field? "left" with
    | none => rfl
    | some left =>
      rw [Option.map_some]
      dsimp only
      rw [kind_withoutComments, field?_withoutComments, field?_withoutComments,
        typeText_withoutComments, text_withoutComments, line_withoutComments]
      split
      · rfl
      · rename_i hname
        cases htype : typeText (a.field? "type") with
        | some type => rfl
        | none =>
          have hidentifier : (a.field? "left").any (·.kind == "identifier") = true := by
            rw [hleft, Option.any_some]
            rwa [bne, Bool.not_eq_true', Bool.not_eq_false] at hname
          dsimp only
          rw [shownType_withoutComments (h a hassignment hidentifier) htype]

theorem addInstanceAttribute_withoutComments (parameters : List Parameter)
    (properties : List Property) {a : Node}
    (h : (a.field? "left").any (fun left =>
      left.kind == "attribute" && left.fieldText "object" == "self") = true →
        hidesField a = false) :
    addInstanceAttribute parameters properties a.withoutComments
      = addInstanceAttribute parameters properties a := by
  rw [addInstanceAttribute, field?_withoutComments, addInstanceAttribute]
  cases hleft : a.field? "left" with
  | none => rfl
  | some left =>
    rw [hleft, Option.any_some] at h
    rw [Option.map_some]
    dsimp only
    rw [kind_withoutComments, fieldText_withoutComments, fieldText_withoutComments]
    split
    · rename_i hself
      rw [field?_withoutComments, field?_withoutComments, typeText_withoutComments,
        line_withoutComments]
      cases htype : typeText (a.field? "type") with
      | some type => rfl
      | none =>
        rw [shownType_withoutComments (h hself) htype]
        cases a.field? "right" with
        | none => rfl
        | some value =>
          rw [Option.map_some]
          dsimp only
          rw [kind_withoutComments, text_withoutComments]
    · rfl

/-- The walk that leaves definitions alone, as a recursion. -/
theorem walk_definitionKinds (n : Node) :
    n.walk definitionKinds
      = n.descendants fun m => m.kind == "function_definition" || m.kind == "class_definition" := by
  rw [walk_eq_descendants]
  simp only [definitionKinds, List.contains_cons, List.contains_nil, Bool.or_false]

theorem addInstanceAttributes_withoutComments (parameters : List Parameter)
    (properties : List Property) {init : Node}
    (h : ∀ a ∈ selfAssignments init, hidesField a = false) :
    addInstanceAttributes parameters properties init.withoutComments
      = addInstanceAttributes parameters properties init := by
  rw [selfAssignments] at h
  rw [addInstanceAttributes, field?_withoutComments, addInstanceAttributes]
  cases hbody : init.field? "body" with
  | none => rfl
  | some body =>
    rw [hbody] at h
    rw [Option.map_some]
    dsimp only
    rw [walk_definitionKinds, walk_definitionKinds]
    have hdescendants := descendants_withoutComments
      (fun l => l.kind == "function_definition" || l.kind == "class_definition") body
    have hassignments := (congrArg (List.filter fun n => n.kind == "assignment") hdescendants).trans
      (filter_withoutCommentsOf_of (p := fun l => l.kind == "assignment")
        (fun c hc => kind_beq_of_isComment hc (by decide)) _)
    refine (congrArg (List.foldl (addInstanceAttribute parameters) properties) hassignments).trans ?_
    rw [List.foldl_map]
    refine List.foldl_ext _ _ _ fun properties a ha => ?_
    refine addInstanceAttribute_withoutComments parameters properties fun hself => h a ?_
    obtain ⟨hbelow, hkind⟩ := List.mem_filter.1 ha
    exact List.mem_filter.2 ⟨hbelow, Bool.and_eq_true_iff.2 ⟨hkind, hself⟩⟩

/-! ## 5. Classes -/

section Bodies

variable {n : Node} {decorators : List String}

theorem addMethod_withoutComments (body : Body) (h : isClear n = true)
    (hself : n.fieldText "name" = "__init__" → ∀ a ∈ selfAssignments n, hidesField a = false) :
    body.addMethod decorators n.withoutComments = body.addMethod decorators n := by
  rw [Body.addMethod, fieldText_withoutComments, parameters_withoutComments h,
    field?_withoutComments, typeText_withoutComments, hasToken_withoutComments n (by decide),
    line_withoutComments, Body.addMethod]
  -- no other method gives fields
  by_cases hinit : n.fieldText "name" = "__init__"
  · rw [addInstanceAttributes_withoutComments _ _ (hself hinit)]
  · have hno : ¬ (n.fieldText "name" == "__init__") = true := mt eq_of_beq hinit
    rw [if_neg hno, if_neg hno]

/-- A statement that hides no field adds to a body what it adds without comments. -/
theorem addStatement_withoutComments (body : Body) {statement : Node}
    (h : isClear statement = true)
    (hfields : ∀ a ∈ statementAssignments statement, hidesField a = false) :
    body.addStatement statement.withoutComments = body.addStatement statement := by
  rw [statementAssignments] at hfields
  have hclear : isClear (undecorated statement).2 = true := everywhere_undecorated h
  rw [Body.addStatement, undecorated_withoutComments, Body.addStatement]
  generalize undecorated statement = decorated at hfields hclear ⊢
  obtain ⟨decorators, definition⟩ := decorated
  dsimp only at hfields hclear ⊢
  rw [kind_withoutComments]
  split
  · rename_i hfunction
    rw [if_pos hfunction] at hfields
    refine addMethod_withoutComments body hclear fun hinit a ha => hfields a ?_
    rw [if_pos (beq_iff_eq.2 hinit)]
    exact ha
  split
  · rename_i hfunction hexpression
    rw [if_neg hfunction, if_pos hexpression] at hfields
    refine congrArg (fun properties => { body with properties }) ?_
    refine addClassAttribute_withoutComments body.properties fun a ha hname => hfields a ?_
    exact List.mem_filter.2 ⟨Option.mem_toList.2 ha, hname⟩
  · rfl

theorem addStatement_of_isComment (body : Body) (h : n.isComment = true) :
    body.addStatement n = body := by
  rw [Body.addStatement, undecorated_of_isComment h]
  dsimp only
  rw [kind_beq_of_isComment h (by decide), kind_beq_of_isComment h (by decide)]
  rfl

end Bodies

/-- The bases in a header. -/
theorem bases_withoutComments (list : Node) :
    list.withoutComments.named.filterMap base? = list.named.filterMap base? := by
  rw [named_withoutComments]
  exact filterMap_withoutCommentsOf (fun c hc => base?_of_isComment hc)
    fun c _ => base?_withoutComments c

/-- The statements of a body. -/
theorem statements_withoutComments {block : Node} (h : isClear block = true)
    (hfields : ∀ statement ∈ block.named, ∀ a ∈ statementAssignments statement,
      hidesField a = false) (body : Body) :
    block.withoutComments.named.foldl Body.addStatement body
      = block.named.foldl Body.addStatement body := by
  rw [named_withoutComments]
  exact foldl_withoutCommentsOf (fun body c hc => addStatement_of_isComment body hc)
    (fun body c hc => addStatement_withoutComments body (everywhere_of_named h hc) (hfields c hc))
    body

theorem classDeclared_withoutComments (path : String) (h : isClear n = true)
    (hkind : (n.kind == "class_definition") = true) :
    classDeclared path n.withoutComments = classDeclared path n := by
  have hfields := (places_of_isClear h).2
  rw [hkind, Bool.true_and, List.any_eq_false, fieldAssignments] at hfields
  rw [classDeclared, fieldText_withoutComments, line_withoutComments, field?_withoutComments,
    field?_withoutComments, classDeclared]
  split
  · rfl
  · cases hblock : n.field? "body" with
    | none =>
      cases n.field? "superclasses" with
      | none => rfl
      | some list =>
        rw [Option.map_some, Option.map_none]
        dsimp only
        rw [bases_withoutComments]
    | some block =>
      rw [hblock] at hfields
      have hstatements := statements_withoutComments (everywhere_of_field? h hblock)
        fun statement hstatement a ha => Bool.eq_false_iff.2
          (hfields a (List.mem_flatMap.2 ⟨statement, hstatement, ha⟩))
      cases n.field? "superclasses" with
      | none =>
        rw [Option.map_some, Option.map_none]
        dsimp only
        rw [hstatements]
      | some list =>
        rw [Option.map_some, Option.map_some]
        dsimp only
        rw [hstatements, bases_withoutComments]

theorem functionDeclared_withoutComments (h : isClear n = true) :
    functionDeclared n.withoutComments = functionDeclared n := by
  rw [functionDeclared, fieldText_withoutComments, parameters_withoutComments h,
    field?_withoutComments, typeText_withoutComments, hasToken_withoutComments n (by decide),
    line_withoutComments, functionDeclared]

theorem declared_withoutComments (path : String) (h : isClear n = true) :
    declared path n.withoutComments = declared path n := by
  have hclear : isClear (undecorated n).2 = true := everywhere_undecorated h
  rw [declared, undecorated_withoutComments, declared]
  generalize (undecorated n).2 = definition at hclear ⊢
  dsimp only
  rw [kind_withoutComments]
  split
  · rename_i hclass
    exact classDeclared_withoutComments path hclear hclass
  split
  · exact functionDeclared_withoutComments hclear
  · rfl

theorem declared_of_isComment (path : String) (h : n.isComment = true) : declared path n = {} := by
  rw [declared, undecorated_of_isComment h]
  dsimp only
  rw [kind_beq_of_isComment h (by decide), kind_beq_of_isComment h (by decide)]
  rfl

/-! ## 6. Files -/

theorem exports_withoutComments (n : Node) : exports n.withoutComments = exports n := by
  rw [exports, undecorated_withoutComments, exports]
  generalize (undecorated n).2 = definition
  dsimp only
  rw [kind_withoutComments]
  split
  · rw [child?_withoutComments definition (by decide)]
    cases definition.child? ["assignment"] with
    | none => rfl
    | some assignment =>
      rw [Option.map_some]
      dsimp only
      rw [field?_withoutComments]
      cases assignment.field? "right" with
      | none => rfl
      | some right =>
        have hstrings := filter_withoutCommentsOf_of (p := fun l => l.kind == "string")
          (fun c hc => kind_beq_of_isComment hc (by decide)) right.named
        rw [Option.map_some]
        dsimp only
        rw [fieldText_withoutComments, named_withoutComments]
        split
        · refine (congrArg (List.map _) hstrings).trans ?_
          rw [List.map_map]
          refine List.map_congr_left fun element _ => ?_
          rw [Function.comp_apply, text_withoutComments, line_withoutComments]
        · rfl
  · rfl

theorem exports_of_isComment (h : n.isComment = true) : exports n = [] := by
  rw [exports, undecorated_of_isComment h]
  dsimp only
  rw [kind_beq_of_isComment h (by decide)]
  rfl

theorem moduleImport_withoutComments (line : Int) (n : Node) :
    moduleImport line n.withoutComments = moduleImport line n := by
  rw [moduleImport, kind_withoutComments, fieldText_withoutComments, fieldText_withoutComments,
    text_withoutComments, moduleImport]

theorem namesImport_withoutComments (n : Node) :
    namesImport n.withoutComments = namesImport n := by
  rw [namesImport, fieldText_withoutComments, child?_withoutComments n (by decide),
    Option.isSome_map, line_withoutComments, fields_withoutComments, List.map_map, namesImport]
  refine congrArg (Import.addSpecifiers _) (List.map_congr_left fun nameNode _ => ?_)
  rw [Function.comp_apply, kind_withoutComments, fieldText_withoutComments, text_withoutComments]

theorem importsOf_withoutComments (capture : Capture ImportForm) :
    importsOf capture.withoutComments = importsOf capture := by
  obtain ⟨tag, site⟩ := capture
  cases tag with
  | module =>
    rw [importsOf, importsOf]
    dsimp only
    rw [Capture.node_withoutComments, fields_withoutComments, line_withoutComments, List.map_map]
    exact List.map_congr_left fun nameNode _ => moduleImport_withoutComments _ nameNode
  | names => exact congrArg (fun i => [i]) (namesImport_withoutComments site.node)

theorem imports_withoutComments (root : Node) :
    (root.withoutComments.captures importQuery).flatMap importsOf
      = (root.captures importQuery).flatMap importsOf := by
  have hcaptures : root.withoutComments.captures importQuery
      = (root.captures importQuery).map Capture.withoutComments :=
    captures_byKind_withoutComments root (by decide)
  rw [hcaptures, List.flatMap_map]
  exact List.flatMap_congr fun capture _ => importsOf_withoutComments capture

/-- **The outline of a Python file does not depend on comments** that nothing is read from. -/
theorem outline_withoutComments (path : String) {root : Node} (h : isClear root = true) :
    outline path root.withoutComments
      = { outline path root with tree := some root.withoutComments } := by
  have hdeclared : Declared.concat (root.withoutComments.named.map (declared path))
      = Declared.concat (root.named.map (declared path)) :=
    Declared.concat_named_withoutComments (fun _ => declared_of_isComment path)
      (fun _ => declared_withoutComments path) h
  have hexports : root.withoutComments.named.flatMap exports = root.named.flatMap exports := by
    rw [named_withoutComments]
    exact flatMap_withoutCommentsOf (fun c hc => exports_of_isComment hc)
      fun c _ => exports_withoutComments c
  rw [outline, outline, hdeclared, hexports, imports_withoutComments]

end CodeAtlas.Outline.Python
