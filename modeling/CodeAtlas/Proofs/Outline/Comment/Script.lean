import CodeAtlas.Proofs.Outline.Comment.Reader

/-!
# Comments in script files

Script declarations are written in many shapes, and several of their readers take the nearest node
without asking whether it is a comment: those of annotations, of the heritage of classes and
interfaces, of initial values and of namespace exports. `Script.readsComment` says where they may come
upon one. In a tree without such places every statement declares and exports the same without
comments (`Script.statement_withoutComments`).
-/

namespace CodeAtlas.Outline.Script

open Syntax Syntax.Node

/-! ## 1. Where a comment is read -/

/-- Whether a node is an annotation, of which the type in it counts. -/
def isTypeNote (n : Node) : Bool :=
  "type_annotation".toList.isSuffixOf n.kind.toList

/-- Whether the type that a value shows has a comment in front. -/
def hidesType (value : Node) : Bool :=
  hidesElement "array" (fun element => (inferredType element).any (!·.isEmpty)) value

/-- Whether the type of a field is read from a value that hides it. -/
def hidesField (n : Node) : Bool :=
  (n.kind == "public_field_definition" || n.kind == "field_definition") &&
    (typeNote (n.field? "type")).isNone && (n.field? "value").any hidesType

/-- Whether a clause of a heritage has a comment where a name is read. -/
def hidesHeritage (n : Node) : Bool :=
  (n.kind == "extends_clause" && (n.field? "value").isNone && n.opensWithComment) ||
    (n.kind == "implements_clause" && n.holdsComment) ||
    (n.kind == "interface_declaration" &&
      (n.child? ["extends_type_clause", "extends_clause"]).any holdsComment)

/-- Whether a comment stands where a type or a name may be read. -/
def readsComment (n : Node) : Bool :=
  (isTypeNote n && n.opensWithComment) || hidesField n || hidesHeritage n ||
    (n.kind == "namespace_export" && n.named.getLast?.any isComment)

/-- Whether nothing in a tree is read from a comment. -/
def isClear (n : Node) : Bool :=
  n.everywhere fun m => !readsComment m

variable {n : Node}

theorem places_of_isClear (h : isClear n = true) :
    (isTypeNote n && n.opensWithComment) = false ∧ hidesField n = false ∧
      hidesHeritage n = false ∧
      (n.kind == "namespace_export" && n.named.getLast?.any isComment) = false := by
  have hnone := holds_of_everywhere h
  rw [readsComment, Bool.not_or, Bool.not_or, Bool.not_or] at hnone
  simpa only [Bool.and_eq_true, Bool.not_eq_true', and_assoc] using hnone

/-! ## 2. Pieces of declarations -/

theorem typeNote_some (n : Node) :
    typeNote (some n)
      = nonempty? (if isTypeNote n then (n.named.head?.map (·.text)).getD n.text
          else n.text) := by
  rw [typeNote, Option.bind_some]
  cases n.named with
  | nil =>
    dsimp only
    rw [List.head?_nil, Option.map_none, Option.getD_none, ite_self]
  | cons type rest => rfl

/-- Annotations are nodes in a field of what they annotate. -/
theorem typeNote_withoutComments {name : String} (h : isClear n = true) :
    typeNote (n.withoutComments.field? name) = typeNote (n.field? name) := by
  rw [field?_withoutComments]
  cases hfield : n.field? name with
  | none => rfl
  | some note =>
    have hplace := (places_of_isClear (everywhere_of_field? h hfield)).1
    rw [Option.map_some, typeNote_some, typeNote_some, text_withoutComments, isTypeNote,
      kind_withoutComments, ← isTypeNote]
    by_cases hnote : isTypeNote note = true
    · rw [hnote, Bool.true_and] at hplace
      rw [if_pos hnote, if_pos hnote, head?_named_withoutComments, firstElement?_eq_head? hplace,
        Option.map_map]
      refine congrArg (fun f => nonempty? ((Option.map f _).getD _)) (funext fun type => ?_)
      rw [Function.comp_apply, text_withoutComments]
    · rw [if_neg hnote, if_neg hnote]

theorem visibility_withoutComments (n : Node) : visibility n.withoutComments = visibility n := by
  rw [visibility, child?_withoutComments n (by decide), visibility]
  cases n.child? ["accessibility_modifier"] with
  | none => rfl
  | some modifier =>
    rw [Option.map_some]
    dsimp only
    rw [text_withoutComments]

theorem patternName_withoutComments (pattern : Option Node) :
    patternName (pattern.map withoutComments) = patternName pattern := by
  cases pattern with
  | none => rfl
  | some pattern =>
    rw [Option.map_some, patternName, kind_withoutComments, child?_withoutComments pattern (by decide),
      textOf_withoutComments, text_withoutComments, patternName]

theorem parameter?_withoutComments (h : isClear n = true) :
    parameter? n.withoutComments = parameter? n := by
  rw [parameter?, parameter?, kind_withoutComments]
  split
  · rw [typeNote_withoutComments h, field?_withoutComments, field?_withoutComments,
      child?_withoutComments n (by decide), Option.isSome_map, Option.isSome_map,
      hasToken_withoutComments n (by decide), visibility_withoutComments]
    cases n.field? "pattern" with
    | none => rfl
    | some pattern =>
      have hname := patternName_withoutComments (some pattern)
      rw [Option.map_some] at hname ⊢
      dsimp only
      rw [kind_withoutComments, hname]
  split
  · rw [text_withoutComments]
  split
  · rw [field?_withoutComments, patternName_withoutComments]
  split
  · exact congrArg (fun name => some { name : Parameter }) (patternName_withoutComments (some n))
  · rfl

theorem parameter?_of_isComment (h : n.isComment = true) : parameter? n = none := by
  simp (disch := decide) only [parameter?, kind_beq_of_isComment h, Bool.or_self,
    Bool.false_eq_true, if_false]

theorem parameters_withoutComments {list : Node} (h : isClear list = true) :
    parameters (some list.withoutComments) = parameters (some list) :=
  filterMap_named_withoutComments (fun _ => parameter?_of_isComment)
    (fun _ => parameter?_withoutComments) h

theorem parameters_field?_withoutComments {name : String} (h : isClear n = true) :
    parameters (n.withoutComments.field? name) = parameters (n.field? name) :=
  listed_field?_withoutComments rfl (fun _ => rfl) (fun _ => parameter?_of_isComment)
    (fun _ => parameter?_withoutComments) h

/-! ## 3. Types that values show -/

section Values

variable {value : Node}

theorem inferredType_of_array (h : (value.kind == "array") = true) :
    inferredType value = value.named.head?.bind fun element =>
      (inferredType element).bind fun type =>
        if type.isEmpty then none else some (type ++ "[]") := by
  rw [inferredType, if_neg (by rw [eq_of_beq h]; decide), if_pos h]
  split
  · rename_i element rest hnamed
    rw [hnamed, List.head?_cons, Option.bind_some]
    cases inferredType element with
    | none => rfl
    | some type => rfl
  · rename_i hnamed
    rw [hnamed]
    rfl

/-- Of other values only the name of a constructor is read. -/
theorem inferredType_withoutComments_of_not (h : ¬ (value.kind == "array") = true) :
    inferredType value.withoutComments = inferredType value := by
  rw [inferredType, inferredType, kind_withoutComments, if_neg h, if_neg h, field?_withoutComments]
  cases value.field? "constructor" with
  | none => rfl
  | some constructor =>
    rw [Option.map_some]
    dsimp only
    rw [text_withoutComments, kind_withoutComments]

theorem inferredType_of_isComment (h : value.isComment = true) : inferredType value = none := by
  rw [inferredType, kind_beq_of_isComment h (by decide), kind_beq_of_isComment h (by decide)]
  rfl

theorem infersElements : InfersElements inferredType "array"
    (fun element => (inferredType element).any (!·.isEmpty))
    fun type => if type.isEmpty then none else some (type ++ "[]") where
  comment _ := inferredType_of_isComment
  list _ := inferredType_of_array
  hidden element h := by
    rw [Option.any_eq_false] at h
    rw [Option.bind_eq_none_iff]
    intro type htype
    have hempty := h type htype
    rw [Bool.not_eq_false'] at hempty
    rw [if_pos hempty]
  rest _ harray _ := inferredType_withoutComments_of_not harray

end Values

/-! ## 4. Classes -/

theorem property_withoutComments (h : isClear n = true)
    (hkind : (n.kind == "public_field_definition" || n.kind == "field_definition") = true) :
    property n.withoutComments = property n := by
  have hvalue : typeNote (n.field? "type") = none →
      ((n.field? "value").map withoutComments).bind inferredType
        = (n.field? "value").bind inferredType := by
    intro htype
    have hplace := (places_of_isClear h).2.1
    rw [hidesField, hkind, htype, Option.isNone_none, Bool.true_and, Bool.true_and,
      Option.any_eq_false] at hplace
    cases hfield : n.field? "value" with
    | none => rfl
    | some value => exact infersElements.withoutComments value (hplace value hfield)
  have hname : ((n.firstField? ["name", "property"]).map withoutComments).map (·.kind)
      = (n.firstField? ["name", "property"]).map (·.kind) := by
    rw [Option.map_map]
    exact congrArg (fun f => Option.map f _) (funext fun name => name.kind_withoutComments)
  rw [property, firstField?_withoutComments, hname, textOf_withoutComments,
    typeNote_withoutComments h, field?_withoutComments, visibility_withoutComments,
    hasToken_withoutComments n (by decide), hasToken_withoutComments n (by decide),
    line_withoutComments, property]
  cases htype : typeNote (n.field? "type") with
  | some type => rfl
  | none => rw [hvalue htype]

theorem member?_withoutComments (h : isClear n = true) : member? n.withoutComments = member? n := by
  rw [member?, kind_withoutComments, member?]
  split
  · rename_i hkind
    rw [property_withoutComments h hkind]
  split
  · dsimp only
    rw [fieldText_withoutComments, parameters_field?_withoutComments h, typeNote_withoutComments h,
      visibility_withoutComments, hasToken_withoutComments n (by decide),
      hasToken_withoutComments n (by decide), hasToken_withoutComments n (by decide),
      line_withoutComments]
  · rfl

theorem member?_of_isComment (h : n.isComment = true) : member? n = none := by
  simp (disch := decide) only [member?, kind_beq_of_isComment h, Bool.or_self,
    Bool.false_eq_true, if_false]

/-- The types that a clause without comments lists. -/
theorem types_withoutComments (h : n.holdsComment = false) :
    (n.withoutComments.named.map fun type => typeHead type.text)
      = n.named.map fun type => typeHead type.text := by
  rw [holdsComment, List.any_eq_false] at h
  rw [named_withoutComments, withoutCommentsOf_eq_map fun c hc => Bool.eq_false_iff.2 (h c hc),
    List.map_map]
  exact List.map_congr_left fun c _ => congrArg typeHead c.text_withoutComments

theorem addHeritage_withoutComments (heritage : Option String × List String)
    (h : isClear n = true) :
    addHeritage heritage n.withoutComments = addHeritage heritage n := by
  have hplace := (places_of_isClear h).2.2.1
  rw [hidesHeritage, Bool.or_eq_false_iff, Bool.or_eq_false_iff] at hplace
  obtain ⟨⟨hextends, himplements⟩, -⟩ := hplace
  simp only [addHeritage, kind_withoutComments, text_withoutComments, field?_withoutComments]
  split
  · rename_i hkind
    rw [hkind, Bool.true_and] at hextends
    cases hvalue : n.field? "value" with
    | some value =>
      rw [Option.map_some]
      simp only [kind_withoutComments, text_withoutComments]
    | none =>
      rw [hvalue, Option.isNone_none, Bool.true_and] at hextends
      rw [Option.map_none]
      dsimp only
      rw [head?_named_withoutComments, firstElement?_eq_head? hextends]
      cases n.named.head? with
      | none => rfl
      | some value =>
        rw [Option.map_some]
        simp only [kind_withoutComments, text_withoutComments]
  split
  · rename_i hkind
    rw [hkind, Bool.true_and] at himplements
    rw [types_withoutComments himplements]
  · rfl

theorem addHeritage_of_isComment (heritage : Option String × List String)
    (h : n.isComment = true) : addHeritage heritage n = heritage := by
  simp (disch := decide) only [addHeritage, kind_beq_of_isComment h, Bool.or_self, Bool.and_false,
    Bool.false_eq_true, if_false]

/-- The clauses of a heritage. -/
theorem clauses_withoutComments (h : isClear n = true) :
    n.withoutComments.named.foldl addHeritage (none, [])
      = n.named.foldl addHeritage (none, []) := by
  rw [named_withoutComments]
  exact foldl_withoutCommentsOf (fun heritage c hc => addHeritage_of_isComment heritage hc)
    (fun heritage c hc => addHeritage_withoutComments heritage (everywhere_of_named h hc)) _

/-- The members of a class body. -/
theorem members_withoutComments (h : isClear n = true) :
    n.withoutComments.named.filterMap member? = n.named.filterMap member? :=
  filterMap_named_withoutComments (fun _ => member?_of_isComment)
    (fun _ => member?_withoutComments) h

theorem classDecl?_withoutComments (path : String) (defaultName : Option String)
    (h : isClear n = true) :
    classDecl? path n.withoutComments defaultName = classDecl? path n defaultName := by
  rw [classDecl?, fieldText_withoutComments, child?_withoutComments n (by decide),
    field?_withoutComments, kind_withoutComments, line_withoutComments,
    hasToken_withoutComments n (by decide), classDecl?]
  split
  · rfl
  · cases hheritage : n.child? ["class_heritage"] with
    | none =>
      cases hbody : n.field? "body" with
      | none => rfl
      | some body =>
        rw [Option.map_some, Option.map_none]
        dsimp only
        rw [members_withoutComments (everywhere_of_field? h hbody)]
    | some clause =>
      cases hbody : n.field? "body" with
      | none =>
        rw [Option.map_some, Option.map_none]
        dsimp only
        rw [clauses_withoutComments (everywhere_of_child? h hheritage)]
      | some body =>
        rw [Option.map_some, Option.map_some]
        dsimp only
        rw [clauses_withoutComments (everywhere_of_child? h hheritage),
          members_withoutComments (everywhere_of_field? h hbody)]

/-! ## 5. Interfaces, functions, variables -/

theorem signatureProperty?_withoutComments (h : isClear n = true) :
    signatureProperty? n.withoutComments = signatureProperty? n := by
  rw [signatureProperty?, kind_withoutComments, signatureProperty?]
  split
  · rw [typeNote_withoutComments h, fieldText_withoutComments, hasToken_withoutComments n (by decide),
      line_withoutComments]
  · rfl

theorem signatureProperty?_of_isComment (h : n.isComment = true) : signatureProperty? n = none := by
  rw [signatureProperty?, kind_beq_of_isComment h (by decide)]
  rfl

theorem signatureMethod?_withoutComments (h : isClear n = true) :
    signatureMethod? n.withoutComments = signatureMethod? n := by
  rw [signatureMethod?, kind_withoutComments, signatureMethod?]
  split
  · rw [fieldText_withoutComments, parameters_field?_withoutComments h, typeNote_withoutComments h,
      line_withoutComments]
  · rfl

theorem signatureMethod?_of_isComment (h : n.isComment = true) : signatureMethod? n = none := by
  rw [signatureMethod?, kind_beq_of_isComment h (by decide)]
  rfl

/-- The fields and the methods of an interface body. -/
theorem signatures_withoutComments (h : isClear n = true) :
    n.withoutComments.named.filterMap signatureProperty? = n.named.filterMap signatureProperty? ∧
      n.withoutComments.named.filterMap signatureMethod? = n.named.filterMap signatureMethod? :=
  ⟨filterMap_named_withoutComments (fun _ => signatureProperty?_of_isComment)
      (fun _ => signatureProperty?_withoutComments) h,
    filterMap_named_withoutComments (fun _ => signatureMethod?_of_isComment)
      (fun _ => signatureMethod?_withoutComments) h⟩

theorem interfaceDecl?_withoutComments (path : String) (h : isClear n = true)
    (hkind : (n.kind == "interface_declaration") = true) :
    interfaceDecl? path n.withoutComments = interfaceDecl? path n := by
  have hbases : ∀ clause, n.child? ["extends_type_clause", "extends_clause"] = some clause →
      (clause.withoutComments.named.map fun type => typeHead type.text)
        = clause.named.map fun type => typeHead type.text := by
    intro clause hclause
    have hplace := (places_of_isClear h).2.2.1
    rw [hidesHeritage, Bool.or_eq_false_iff, hkind, Bool.true_and, hclause, Option.any_some] at hplace
    exact types_withoutComments hplace.2
  have hmembers := fun body (hbody : n.field? "body" = some body) =>
    signatures_withoutComments (everywhere_of_field? h hbody)
  rw [interfaceDecl?, fieldText_withoutComments, field?_withoutComments,
    child?_withoutComments n (by decide), line_withoutComments, interfaceDecl?]
  refine congrArg (fun f => Option.map f _) (funext fun name => ?_)
  dsimp only
  cases hclause : n.child? ["extends_type_clause", "extends_clause"] with
  | none =>
    cases hbody : n.field? "body" with
    | none => rfl
    | some body =>
      rw [Option.map_some, Option.map_none]
      dsimp only
      rw [(hmembers body hbody).1, (hmembers body hbody).2]
  | some clause =>
    cases hbody : n.field? "body" with
    | none =>
      rw [Option.map_some, Option.map_none]
      dsimp only
      rw [hbases clause hclause]
    | some body =>
      rw [Option.map_some, Option.map_some]
      dsimp only
      rw [(hmembers body hbody).1, (hmembers body hbody).2, hbases clause hclause]

theorem functionDeclared_withoutComments (isExported : Bool) (h : isClear n = true) :
    functionDeclared isExported n.withoutComments = functionDeclared isExported n := by
  rw [functionDeclared, fieldText_withoutComments, parameters_field?_withoutComments h,
    typeNote_withoutComments h, hasToken_withoutComments n (by decide), line_withoutComments,
    functionDeclared]

theorem variableDeclared_withoutComments (isExported : Bool) (h : isClear n = true) :
    variableDeclared isExported n.withoutComments = variableDeclared isExported n := by
  rw [variableDeclared, field?_withoutComments, variableDeclared]
  cases n.field? "name" with
  | none => rfl
  | some nameNode =>
    rw [Option.map_some]
    dsimp only
    rw [kind_withoutComments, text_withoutComments, field?_withoutComments, line_withoutComments]
    split
    · rfl
    · cases hvalue : n.field? "value" with
      | none => rfl
      | some value =>
        have hclear := everywhere_of_field? h hvalue
        rw [Option.map_some, Option.filter_some, Option.filter_some]
        simp only [kind_withoutComments]
        by_cases hfunction : ["arrow_function", "function_expression", "function",
            "generator_function"].contains value.kind = true
        · rw [if_pos hfunction, if_pos hfunction]
          dsimp only
          rw [typeNote_withoutComments hclear, hasToken_withoutComments value (by decide),
            field?_withoutComments, field?_withoutComments]
          cases hlist : value.field? "parameters" with
          | none =>
            cases value.field? "parameter" with
            | none => rfl
            | some single =>
              rw [Option.map_some, Option.map_none]
              dsimp only
              rw [text_withoutComments]
          | some list =>
            rw [Option.map_some]
            dsimp only
            rw [parameters_withoutComments (everywhere_of_field? hclear hlist)]
        · rw [if_neg hfunction, if_neg hfunction]

theorem declared_withoutComments (path : String) (isExported : Bool) (h : isClear n = true) :
    declared path isExported n.withoutComments = declared path isExported n := by
  rw [declared, kind_withoutComments, declared]
  split
  · rw [classDecl?_withoutComments path none h]
  split
  · rename_i hinterface
    rw [interfaceDecl?_withoutComments path h hinterface]
  split
  · rw [fieldText_withoutComments, line_withoutComments]
  split
  · rw [fieldText_withoutComments]
  split
  · exact functionDeclared_withoutComments isExported h
  split
  · rw [childrenOf_withoutComments n (by decide), List.map_map]
    refine congrArg Declared.concat (List.map_congr_left fun declarator hdeclarator => ?_)
    exact variableDeclared_withoutComments isExported
      (everywhere_of_mem h (List.mem_of_mem_filter hdeclarator))
  · rfl

theorem declared_of_isComment (path : String) (isExported : Bool) (h : n.isComment = true) :
    declared path isExported n = {} := by
  simp (disch := decide) only [declared, kind_beq_of_isComment h, Bool.or_self,
    Bool.false_eq_true, if_false]

/-! ## 6. Exports -/

theorem exportedNames_withoutComments (clause : Node) :
    exportedNames clause.withoutComments = exportedNames clause := by
  rw [exportedNames, childrenOf_withoutComments clause (by decide), List.map_map, exportedNames]
  refine List.map_congr_left fun spec _ => ?_
  rw [Function.comp_apply, firstField?_withoutComments, textOf_withoutComments]

theorem reExportedNames_withoutComments (h : isClear n = true) :
    reExportedNames n.withoutComments = reExportedNames n := by
  rw [reExportedNames, child?_withoutComments n (by decide), child?_withoutComments n (by decide),
    reExportedNames]
  cases hall : n.child? ["namespace_export"] with
  | some all =>
    have hplace := (places_of_isClear (everywhere_of_child? h hall)).2.2.2
    have hkind : (all.kind == "namespace_export") = true := by
      have hfound := List.find?_some (p := fun c : Node => ["namespace_export"].contains c.kind) hall
      exact beq_iff_eq.2 (List.mem_singleton.1 (List.contains_iff_mem.1 hfound))
    rw [hkind, Bool.true_and] at hplace
    rw [Option.map_some]
    dsimp only
    rw [named_withoutComments, getLast?_withoutCommentsOf hplace]
    cases all.named.getLast? with
    | none => rfl
    | some name =>
      rw [Option.map_some]
      dsimp only
      rw [text_withoutComments]
  | none =>
    cases n.child? ["export_clause"] with
    | none => rfl
    | some clause => exact exportedNames_withoutComments clause

theorem exportStatement_withoutComments (path : String) (h : isClear n = true) :
    exportStatement path n.withoutComments = exportStatement path n := by
  rw [exportStatement, line_withoutComments, field?_withoutComments, field?_withoutComments,
    field?_withoutComments, child?_withoutComments n (by decide),
    hasToken_withoutComments n (by decide), reExportedNames_withoutComments h, exportStatement]
  dsimp only
  cases hdeclaration : n.field? "declaration" with
  | some declaration =>
    have hclear := everywhere_of_field? h hdeclaration
    rw [Option.map_some]
    dsimp only
    rw [declared_withoutComments path true hclear]
  | none =>
    cases hsource : n.field? "source" with
    | some source =>
      rw [Option.map_none, Option.map_some]
      dsimp only
      rw [text_withoutComments]
    | none =>
      cases hclause : n.child? ["export_clause"] with
      | some clause =>
        rw [Option.map_none, Option.map_some]
        dsimp only
        rw [exportedNames_withoutComments]
      | none =>
        cases hvalue : n.field? "value" with
        | none => rfl
        | some value =>
          have hclear := everywhere_of_field? h hvalue
          rw [Option.map_none, Option.map_some]
          dsimp only
          rw [kind_withoutComments, text_withoutComments,
            classDecl?_withoutComments path (some "default") hclear]

theorem statement_withoutComments (path : String) (h : isClear n = true) :
    statement path n.withoutComments = statement path n := by
  rw [statement, kind_withoutComments, exportStatement_withoutComments path h,
    declared_withoutComments path false h, statement]

theorem statement_of_isComment (path : String) (h : n.isComment = true) :
    statement path n = ({}, []) := by
  rw [statement, kind_beq_of_isComment h (by decide), kind_beq_of_isComment h (by decide),
    declared_of_isComment path false h]
  rfl

end CodeAtlas.Outline.Script
