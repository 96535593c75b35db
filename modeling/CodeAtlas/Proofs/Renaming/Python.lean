import CodeAtlas.Proofs.Outline.Comment.Python
import CodeAtlas.Proofs.Outline.TopLevel
import CodeAtlas.Proofs.Renaming.Reference
import CodeAtlas.Proofs.Renaming.Tree

/-!
# One name for another in Python files

The relationships read the same of the classes in what a renaming leaves of a tree as they read of
those in the tree, under the new name (`Renaming.classes_python`). In these files names are looked up:
an attribute is taken once, and may have the type of a parameter. So the renaming must be clear of the
names of parameters and attributes (`Outline.Python.boundNames`), besides sparing the words that the
readers know.
-/

namespace CodeAtlas

open Syntax Text Outline.Python

/-! ## 1. What is asked of a renaming -/

/-- The words that the readers of Python files know. -/
def Outline.Python.knownWords : List String :=
  ["metaclass", "self", "staticmethod", "__init__", "typing"] ++ markerBases

/-- The names that a node gives to parameters or to an attribute. -/
def Outline.Python.boundNames (n : Node) : List String :=
  if n.kind == "assignment" then
    match n.field? "left" with
    | some left => [if left.kind == "identifier" then left.text else left.fieldText "attribute"]
    | none => []
  else (parameters (n.field? "parameters")).map (·.name)

/-- **Whether a renaming is clear of the names that a node gives.** -/
def Renaming.isClearOfBound (r : Renaming) (n : Node) : Bool :=
  (boundNames n).all fun name => r.IsClearOf name

/-- **What the reading of Python files asks of a renaming**: it spares the words that they know, and
no name of it starts like the annotation of a class variable. -/
structure Renaming.SparesPython (r : Renaming) : Prop where
  words : r.Spares Outline.Python.knownWords
  old : ¬ "ClassVar".toList <+: r.old
  new : ¬ "ClassVar".toList <+: r.new

namespace Renaming.Python

variable {r : Renaming} {o : Bool} {n : Node}

theorem isClearOf_of_mem_boundNames (h : r.isClearOfBound n = true) {name : String}
    (hname : name ∈ boundNames n) : r.IsClearOf name :=
  of_decide_eq_true (List.all_eq_true.1 h name hname)

theorem isClearOf_of_mem_parameters (h : r.isClearOfBound n = true)
    (hkind : (n.kind == "assignment") = false) {p : Parameter}
    (hp : p ∈ parameters (n.field? "parameters")) : r.IsClearOf p.name := by
  refine isClearOf_of_mem_boundNames h ?_
  rw [boundNames, if_neg (ne_true_of_eq_false hkind)]
  exact List.mem_map_of_mem hp

theorem isClearOf_of_field?_left (h : r.isClearOfBound n = true)
    (hkind : (n.kind == "assignment") = true) {left : Node} (hleft : n.field? "left" = some left) :
    r.IsClearOf (if left.kind == "identifier" then left.text else left.fieldText "attribute") := by
  refine isClearOf_of_mem_boundNames h ?_
  rw [boundNames, if_pos hkind, hleft]
  exact List.mem_singleton_self _

/-! ## 2. Parameters and types -/

/-- A parameter as a constructor knows it, its type changed. -/
def retypedParameter (ρ : String → String) (p : Parameter) : Parameter :=
  { name := p.name, type := p.type.map ρ }

theorem map_typeText (n : Option Node) :
    (typeText (n.map (r.tree false))).map r.string = (typeText n).map r.string := by
  cases n with
  | none => rfl
  | some n =>
    exact map_nonempty?_congr (string_stripQuotes_congr (string_trim_congr (r.string_text_inside n)))

theorem string_parameterName (n : Option Node) :
    r.string (parameterName (n.map (r.tree false))) = r.string (parameterName n) := by
  cases n with
  | none => rfl
  | some n =>
    rw [Option.map_some, parameterName, kind_tree, child?_inside, parameterName]
    split
    · exact r.string_textOf_inside _
    · exact r.string_text_inside n

theorem map_parameter? (h : ∀ p ∈ parameter? n, r.IsClearOf p.name) :
    (parameter? (r.tree false n)).map (retypedParameter r.string)
      = (parameter? n).map (retypedParameter r.string) := by
  have hretyped : ∀ {p' p : Parameter}, r.string p'.name = r.string p.name →
      p'.type.map r.string = p.type.map r.string → r.IsClearOf p.name →
      some (retypedParameter r.string p') = some (retypedParameter r.string p) := by
    intro p' p hname htype hclear
    rw [retypedParameter, r.eq_of_isClearOf hname hclear, htype, retypedParameter]
  unfold parameter? at h ⊢
  rw [kind_tree]
  split
  · rename_i hkind
    rw [if_pos hkind] at h
    exact hretyped (r.string_text_inside n) rfl (h _ rfl)
  rename_i hidentifier
  rw [if_neg hidentifier] at h
  split
  · rename_i hkind
    rw [if_pos hkind] at h
    refine hretyped ?_ ?_ (h _ rfl)
    · dsimp only
      rw [named_inside, List.head?_map, string_parameterName]
    · dsimp only
      rw [field?_inside, map_typeText]
  rename_i htyped
  rw [if_neg htyped] at h
  split
  · rename_i hkind
    rw [if_pos hkind] at h
    refine hretyped (r.string_fieldText_inside n "name") ?_ (h _ rfl)
    dsimp only
    rw [field?_inside, map_typeText]
  rename_i hdefault
  rw [if_neg hdefault] at h
  split
  · rename_i hkind
    rw [if_pos hkind] at h
    exact hretyped (string_parameterName (some n)) rfl (h _ rfl)
  · rfl

theorem map_parameters {list : Option Node} (h : ∀ p ∈ parameters list, r.IsClearOf p.name) :
    (parameters (list.map (r.tree false))).map (retypedParameter r.string)
      = (parameters list).map (retypedParameter r.string) := by
  cases list with
  | none => rfl
  | some list =>
    rw [Option.map_some, parameters, named_inside, parameters]
    refine map_filterMap_tree r fun n hn => map_parameter? fun p hp => h p ?_
    exact List.mem_filterMap.2 ⟨n, hn, hp⟩

/-- **The type of a parameter** is found under its name, which a renaming is clear of. -/
theorem map_parameterType? {ps ps' : List Parameter}
    (hps : ps'.map (retypedParameter r.string) = ps.map (retypedParameter r.string))
    (h : ∀ p ∈ ps, r.IsClearOf p.name) {name name' : String}
    (hname : r.string name' = r.string name) :
    (parameterType? ps' name').map r.string = (parameterType? ps name).map r.string := by
  have hretyped : ∀ (ps : List Parameter) (name : String), (parameterType? ps name).map r.string
      = parameterType? (ps.map (retypedParameter r.string)) name := by
    intro ps name
    have hp : (fun p : Parameter => p.type.isSome && p.name == name) ∘ retypedParameter r.string
        = fun p => p.type.isSome && p.name == name := by
      funext p
      rw [Function.comp_apply, retypedParameter, Option.isSome_map]
    rw [parameterType?, parameterType?, ← List.map_reverse, List.find?_map, hp, Option.map_bind,
      Option.bind_map]
    rfl
  have hsame : parameterType? ps name' = parameterType? ps name := by
    rw [parameterType?, parameterType?, ← List.head?_filter, ← List.head?_filter]
    refine congrArg (fun ps : List Parameter => ps.head?.bind (·.type))
      (List.filter_congr fun p hp => ?_)
    have hclear := h p (List.mem_reverse.1 hp)
    have hbeq : (p.name == name') = (p.name == name) := by
      rw [Bool.eq_iff_iff, beq_iff_eq, beq_iff_eq]
      constructor
      · rintro rfl
        exact (r.eq_of_isClearOf hname.symm hclear).symm
      · rintro rfl
        exact (r.eq_of_isClearOf hname hclear).symm
    rw [hbeq]
  rw [hretyped, hps, ← hretyped, hsame]

/-- **The type that a value shows** is the same, since the names of what is called are kept. -/
theorem inferredType_inside (value : Node) :
    inferredType (r.tree false value) = inferredType value := by
  by_cases hlist : (value.kind == "list") = true
  · rw [inferredType_of_list hlist, inferredType_of_list ((r.kind_tree value).symm ▸ hlist),
      named_inside, List.head?_map]
    cases helement : value.named.head? with
    | none => rfl
    | some element =>
      have hless : sizeOf element < sizeOf value := Node.sizeOf_lt_of_mem_children
        (Node.mem_children_of_mem_named (List.mem_of_mem_head? helement))
      rw [Option.map_some, Option.bind_some, inferredType_inside element, Option.bind_some]
  by_cases hcomprehension : (value.kind == "list_comprehension") = true
  · rw [inferredType_of_comprehension hcomprehension,
      inferredType_of_comprehension ((r.kind_tree value).symm ▸ hcomprehension), field?_inside]
    cases hbody : value.field? "body" with
    | none => rfl
    | some body =>
      have hless : sizeOf body < sizeOf value :=
        Node.sizeOf_lt_of_mem_children (Node.mem_children_of_field? hbody)
      rw [Option.map_some, Option.bind_some, inferredType_inside body, Option.bind_some]
  · rw [inferredType, inferredType, kind_tree, if_neg hlist, if_neg hcomprehension, field?_inside]
    split
    · cases hfunction : value.field? "function" with
      | none => rfl
      | some function =>
        have hfield : function.label.field = some "function" := by
          simpa using List.find?_some hfunction
        rw [Option.map_some]
        dsimp only
        rw [kind_tree]
        by_cases hkind : (function.kind == "identifier" || function.kind == "attribute") = true
        · have hcallee : isCallee function.label = true := by
            rw [isCallee, hfield, beq_self_eq_true, Bool.true_and]
            exact hkind
          rw [text_tree r rfl rfl, if_pos hcallee]
        · rw [Bool.eq_false_iff.2 hkind, Bool.false_and, Bool.false_and]
          rfl
    · rfl
termination_by sizeOf value

/-! ## 3. Fields -/

/-- A field, its type changed. -/
def retypedProperty (ρ : String → String) (p : Property) : Property :=
  { name := p.name, type := p.type.map ρ, visibility := p.visibility, isStatic := p.isStatic }

/-- Fields that are the same but for their types. -/
theorem map_usage_of_retyped {ps ps' : List Property}
    (h : ps'.map (retypedProperty r.string) = ps.map (retypedProperty r.string)) :
    ps'.map (·.usage r.string) = ps.map (·.usage r.string) := by
  have hunnamed := congrArg (List.map fun p : Property => { p with name := "" }) h
  rwa [List.map_map, List.map_map] at hunnamed

theorem map_addProperty {ps ps' : List Property}
    (hps : ps'.map (retypedProperty r.string) = ps.map (retypedProperty r.string)) (name : String)
    {type type' : Option String} (htype : type'.map r.string = type.map r.string)
    (isStatic : Bool) (line line' : Int) :
    (addProperty ps' name type' isStatic line').map (retypedProperty r.string)
      = (addProperty ps name type isStatic line).map (retypedProperty r.string) := by
  have hany : ∀ ps : List Property, ps.any (·.name == name)
      = (ps.map (retypedProperty r.string)).any (·.name == name) := by
    intro ps
    rw [List.any_map]
    rfl
  have htaken : ps'.any (·.name == name) = ps.any (·.name == name) := by rw [hany, hps, ← hany]
  unfold addProperty
  rw [htaken]
  split
  · exact hps
  · rw [List.map_append, List.map_append, hps]
    exact congrArg (fun type => _ ++ [{ name, type, visibility := _, isStatic : Property }]) htype

/-- **Annotations of class variables** are told by how they start. -/
theorem startsClassVar_congr (h : r.SparesPython) {s t : String} (hst : r.string s = r.string t) :
    ("ClassVar".toList.isPrefixOf s.toList || "typing.ClassVar".toList.isPrefixOf s.toList)
      = ("ClassVar".toList.isPrefixOf t.toList || "typing.ClassVar".toList.isPrefixOf t.toList) := by
  obtain ⟨hold, hnew⟩ := h.words "typing" (by decide)
  have hplain : ∀ cs, "ClassVar".toList.isPrefixOf (r.text cs) = "ClassVar".toList.isPrefixOf cs :=
    r.isPrefixOf_text (by decide) h.old h.new
  have hqualified : ∀ cs, "typing.ClassVar".toList.isPrefixOf (r.text cs)
      = "typing.ClassVar".toList.isPrefixOf cs := by
    intro cs
    have hword : "typing.ClassVar".toList = ("typing".toList ++ ['.']) ++ "ClassVar".toList := by
      decide
    rw [hword, append_isPrefixOf, append_isPrefixOf,
      r.dropStart?_text (by decide) hold hnew (by decide), Option.any_map]
    exact congrArg (fun p => Option.any p _) (funext hplain)
  rw [← hplain, ← hqualified, ← toList_string, hst, toList_string, hplain, hqualified]

theorem map_addClassAttribute (h : r.SparesPython) {ps ps' : List Property}
    (hps : ps'.map (retypedProperty r.string) = ps.map (retypedProperty r.string))
    (hclear : n.everywhere r.isClearOfBound = true) :
    (addClassAttribute ps' (r.tree false n)).map (retypedProperty r.string)
      = (addClassAttribute ps n).map (retypedProperty r.string) := by
  rw [addClassAttribute, child?_inside, addClassAttribute]
  cases hassignment : n.child? ["assignment"] with
  | none => exact hps
  | some assignment =>
    have hkind : (assignment.kind == "assignment") = true := by
      simpa using List.find?_some hassignment
    rw [Option.map_some]
    dsimp only
    rw [field?_inside]
    cases hleft : assignment.field? "left" with
    | none => exact hps
    | some left =>
      rw [Option.map_some]
      dsimp only
      rw [kind_tree]
      split
      · exact hps
      · rename_i hidentifier
        have hidentifier : (left.kind == "identifier") = true := by simpa using hidentifier
        have hname := isClearOf_of_field?_left
          (Node.holds_of_everywhere (Node.everywhere_of_child? hclear hassignment)) hkind hleft
        rw [if_pos hidentifier] at hname
        rw [r.eq_of_isClearOf (r.string_text_inside left) hname, field?_inside, field?_inside]
        rcases none_or_some_of_map_eq (map_typeText (r := r) (assignment.field? "type"))
          with ⟨h', h''⟩ | ⟨type', type, h', h'', hsame⟩
        · rw [h', h'']
          refine map_addProperty hps left.text ?_ true _ _
          cases assignment.field? "right" with
          | none => rfl
          | some right => exact congrArg (Option.map r.string) (inferredType_inside right)
        · rw [h', h'']
          dsimp only
          rw [startsClassVar_congr h hsame]
          have htype : (some type').map r.string = (some type).map r.string := congrArg some hsame
          exact map_addProperty hps left.text htype _ _ _

theorem map_addInstanceAttribute (h : r.SparesPython) {parameters parameters' : List Parameter}
    (hparameters : parameters'.map (retypedParameter r.string)
      = parameters.map (retypedParameter r.string))
    (hnames : ∀ p ∈ parameters, r.IsClearOf p.name) {ps ps' : List Property}
    (hps : ps'.map (retypedProperty r.string) = ps.map (retypedProperty r.string))
    (hkind : (n.kind == "assignment") = true) (hclear : r.isClearOfBound n = true) :
    (addInstanceAttribute parameters' ps' (r.tree false n)).map (retypedProperty r.string)
      = (addInstanceAttribute parameters ps n).map (retypedProperty r.string) := by
  rw [addInstanceAttribute, field?_inside, addInstanceAttribute]
  cases hleft : n.field? "left" with
  | none => exact hps
  | some left =>
    have hself : ((r.tree false left).fieldText "object" == "self")
        = (left.fieldText "object" == "self") :=
      h.words.beq_congr (by decide) (by decide) (r.string_fieldText_inside left "object")
    rw [Option.map_some]
    dsimp only
    rw [kind_tree, hself]
    split
    · rename_i hattribute
      have hidentifier : ¬ (left.kind == "identifier") = true := by
        rw [Bool.and_eq_true, beq_iff_eq] at hattribute
        rw [hattribute.1]
        decide
      have hname := isClearOf_of_field?_left hclear hkind hleft
      rw [if_neg hidentifier] at hname
      rw [r.eq_of_isClearOf (r.string_fieldText_inside left "attribute") hname]
      refine map_addProperty hps _ ?_ false _ _
      rw [field?_inside, field?_inside, Option.map_or, Option.map_or, Option.map_or, Option.map_or,
        map_typeText]
      cases n.field? "right" with
      | none => rfl
      | some right =>
        rw [Option.map_some, Option.bind_some, Option.bind_some, inferredType_inside]
        dsimp only
        rw [kind_tree]
        split
        · rw [map_parameterType? hparameters hnames (r.string_text_inside right)]
        · rfl
    · exact hps

theorem map_addInstanceAttributes (h : r.SparesPython) {parameters parameters' : List Parameter}
    (hparameters : parameters'.map (retypedParameter r.string)
      = parameters.map (retypedParameter r.string))
    (hnames : ∀ p ∈ parameters, r.IsClearOf p.name) {ps ps' : List Property}
    (hps : ps'.map (retypedProperty r.string) = ps.map (retypedProperty r.string))
    (hdropped : isDropped o n = false) (hclear : n.everywhere r.isClearOfBound = true) :
    (addInstanceAttributes parameters' ps' (r.tree o n)).map (retypedProperty r.string)
      = (addInstanceAttributes parameters ps n).map (retypedProperty r.string) := by
  rw [addInstanceAttributes, field?_tree r hdropped, addInstanceAttributes]
  cases hbody : n.field? "body" with
  | none => exact hps
  | some body =>
    rw [Option.map_some]
    dsimp only
    rw [walk_definitionKinds, walk_definitionKinds,
      filter_descendants_tree r fun o n => by rw [kind_tree]]
    refine foldl_tree r (fun assignment hassignment ps ps' hps => ?_) hps
    obtain ⟨hmem, hkind⟩ := List.mem_filter.1 hassignment
    refine map_addInstanceAttribute h hparameters hnames hps hkind ?_
    exact Node.holds_of_everywhere
      (Node.everywhere_of_mem_descendants (Node.everywhere_of_field? hclear hbody) hmem)

/-! ## 4. Methods and bodies -/

/-- The decorators of a definition are renamed. -/
theorem map_decorators (n : Node) :
    (undecorated (r.tree o n)).1.map r.string = (undecorated n).1.map r.string := by
  rw [undecorated, kind_tree, undecorated]
  split
  · rename_i hkind
    have hdropped : isDropped o n = false := isDropped_of_kind (by rw [beq_iff_eq.1 hkind]; decide)
    rw [named_tree r hdropped, List.filter_map]
    dsimp only
    rw [List.map_map, List.map_map, List.map_map]
    have hdecorator : (fun n : Node => n.kind == "decorator") ∘ r.tree (isOutside o n)
        = fun n => n.kind == "decorator" := funext fun n => by rw [Function.comp_apply, kind_tree]
    rw [hdecorator]
    refine List.map_congr_left fun decorator hmem => ?_
    have hkind : decorator.kind = "decorator" := beq_iff_eq.1 (List.mem_filter.1 hmem).2
    refine string_lastSegment_congr (string_onString_congr (fun cs => ?_) ?_)
    · rw [r.dropWhile_text (v := false) fun c hc =>
        beq_eq_false_iff_ne.2 (ne_of_isIdentifierChar (by decide) hc), r.beforeFirst_text (by decide),
        r.trim_text]
    · rw [tree_eq_inside_of_kind r (by rw [hkind]; decide) (by rw [hkind]; decide)]
      exact r.string_text_inside decorator
  · rfl

/-- The definition under the decorators is kept. -/
theorem exists_undecorated_tree (n : Node) :
    ∃ o', (undecorated (r.tree o n)).2 = r.tree o' (undecorated n).2 := by
  rw [undecorated, kind_tree, undecorated]
  split
  · rename_i hkind
    have hdropped : isDropped o n = false := isDropped_of_kind (by rw [beq_iff_eq.1 hkind]; decide)
    dsimp only
    rw [field?_tree r hdropped]
    cases n.field? "definition" with
    | none => exact ⟨o, rfl⟩
    | some definition => exact ⟨isOutside o n, rfl⟩
  · exact ⟨o, rfl⟩

/-- What the relationships read of a body. -/
def usageOfBody (ρ : String → String) (body : Body) : Body :=
  { properties := body.properties.map (retypedProperty ρ)
    methods := body.methods.map (·.usage ρ)
    constructorParameters := body.constructorParameters.map fun ps => ps.map (·.usage ρ) }

/-- Parameters that are the same but for their types. -/
theorem map_usageOfParameters {ps ps' : List Parameter}
    (h : ps'.map (retypedParameter r.string) = ps.map (retypedParameter r.string)) :
    ps'.map (·.usage r.string) = ps.map (·.usage r.string) := by
  have hunnamed := congrArg (List.map fun p : Parameter => { p with name := "" }) h
  rwa [List.map_map, List.map_map] at hunnamed

/-- The parameters of a method without the one for the receiver. -/
def withoutReceiver (isStatic : Bool) : List Parameter → List Parameter
  | first :: rest =>
    if (first.name == "self" || first.name == "cls") && !isStatic then rest else first :: rest
  | [] => []

theorem map_withoutReceiver (isStatic : Bool) (ps : List Parameter) :
    (withoutReceiver isStatic ps).map (retypedParameter r.string)
      = withoutReceiver isStatic (ps.map (retypedParameter r.string)) := by
  cases ps with
  | nil => rfl
  | cons first rest =>
    rw [withoutReceiver, List.map_cons, withoutReceiver, apply_ite (List.map _)]
    rfl

theorem mem_of_mem_withoutReceiver {isStatic : Bool} {ps : List Parameter} {p : Parameter}
    (h : p ∈ withoutReceiver isStatic ps) : p ∈ ps := by
  cases ps with
  | nil => exact h
  | cons first rest =>
    rw [withoutReceiver] at h
    split at h
    · exact List.mem_cons_of_mem first h
    · exact h

/-- What is read of a body after one more method. -/
theorem usageOfBody_addMethod (ρ : String → String) (body : Body) (decorators : List String)
    (n : Node) :
    let ps := withoutReceiver (decorators.contains "staticmethod") (parameters (n.field? "parameters"))
    usageOfBody ρ (body.addMethod decorators n)
      = if n.fieldText "name" == "__init__" then
          { usageOfBody ρ body with
            properties := (addInstanceAttributes ps body.properties n).map (retypedProperty ρ)
            constructorParameters := some (ps.map (·.usage ρ)) }
        else
          { usageOfBody ρ body with
            methods := (usageOfBody ρ body).methods ++
              [{ name := "", parameters := ps.map (·.usage ρ)
                 returnType := (typeText (n.field? "return_type")).map ρ }] } := by
  intro ps
  change usageOfBody ρ (if n.fieldText "name" == "__init__" then
    { body with
      constructorParameters := some ps
      properties := addInstanceAttributes ps body.properties n }
    else
      { body with
        methods := body.methods ++
          [{ name := _, parameters := ps, returnType := _, visibility := _, isStatic := _
             isAbstract := _, isAsync := _, line := _ }] }) = _
  split
  · rfl
  · exact congrArg (fun methods => { usageOfBody ρ body with methods }) List.map_append

/-- A method adds the same to a body. -/
theorem usage_addMethod (h : r.SparesPython) {body body' : Body}
    (hbody : usageOfBody r.string body' = usageOfBody r.string body)
    {decorators decorators' : List String}
    (hdecorators : decorators'.map r.string = decorators.map r.string)
    (hkind : (n.kind == "function_definition") = true)
    (hclear : n.everywhere r.isClearOfBound = true) :
    usageOfBody r.string (body'.addMethod decorators' (r.tree o n))
      = usageOfBody r.string (body.addMethod decorators n) := by
  have hdropped : isDropped o n = false := isDropped_of_kind (by rw [beq_iff_eq.1 hkind]; decide)
  have hname : ((r.tree o n).fieldText "name" == "__init__") = (n.fieldText "name" == "__init__") :=
    h.words.beq_congr (by decide) (by decide) (string_fieldText_tree r hdropped (by decide))
  have hstatic : decorators'.contains "staticmethod" = decorators.contains "staticmethod" := by
    have hany : ∀ decorators : List String, decorators.contains "staticmethod"
        = (decorators.map r.string).any (· == "staticmethod") := by
      intro decorators
      rw [List.any_map, List.contains_eq_any_beq]
      refine congrArg decorators.any (funext fun decorator => ?_)
      rw [Function.comp_apply, h.words.string_beq (by decide) (by decide), BEq.comm]
    rw [hany, hdecorators, ← hany]
  have hlist : ∀ p ∈ parameters (n.field? "parameters"), r.IsClearOf p.name := fun _ =>
    isClearOf_of_mem_parameters (Node.holds_of_everywhere hclear)
      (by rw [beq_iff_eq.1 hkind]; decide)
  have hparameters : ∀ isStatic, (withoutReceiver isStatic (parameters
        ((n.field? "parameters").map (r.tree false)))).map (retypedParameter r.string)
      = (withoutReceiver isStatic (parameters (n.field? "parameters"))).map
        (retypedParameter r.string) := by
    intro isStatic
    rw [map_withoutReceiver, map_parameters hlist, map_withoutReceiver]
  rw [usageOfBody_addMethod, usageOfBody_addMethod, hname, hstatic, hbody,
    field?_tree_of_notMem r hdropped (by decide), field?_tree_of_notMem r hdropped (by decide),
    map_typeText, map_usageOfParameters (hparameters _)]
  split
  · rw [map_addInstanceAttributes h (hparameters _)
      (fun p hp => hlist p (mem_of_mem_withoutReceiver hp)) (congrArg Body.properties hbody) hdropped
      hclear]
  · rfl

theorem addStatement_eq (body : Body) (n : Node) :
    body.addStatement n
      = if (undecorated n).2.kind == "function_definition" then
          body.addMethod (undecorated n).1 (undecorated n).2
        else if (undecorated n).2.kind == "expression_statement" then
          { body with properties := addClassAttribute body.properties (undecorated n).2 }
        else body :=
  rfl

/-- A statement adds the same to a body. -/
theorem usage_addStatement (h : r.SparesPython) {body body' : Body}
    (hbody : usageOfBody r.string body' = usageOfBody r.string body)
    (hclear : n.everywhere r.isClearOfBound = true) :
    usageOfBody r.string (body'.addStatement (r.tree o n))
      = usageOfBody r.string (body.addStatement n) := by
  obtain ⟨o', hdefinition⟩ := exists_undecorated_tree (r := r) (o := o) n
  have hclear := everywhere_undecorated hclear
  rw [addStatement_eq, addStatement_eq, hdefinition, kind_tree]
  split
  · rename_i hkind
    exact usage_addMethod h hbody (map_decorators n) hkind hclear
  split
  · rename_i hkind
    rw [tree_eq_inside_of_kind r (by rw [beq_iff_eq.1 hkind]; decide)
      (by rw [beq_iff_eq.1 hkind]; decide)]
    have hproperties := map_addClassAttribute h (congrArg Body.properties hbody) hclear
    exact congrArg₂ (fun body properties => { body with properties }) hbody hproperties
  · exact hbody

/-! ## 5. Classes -/

/-- What a base of a class is, its name changed. -/
def usageOfBase (ρ : String → String) : Base → Base
  | .inherited name => .inherited (ρ name)
  | .mark name => .mark (ρ name)

theorem map_base? (h : r.SparesPython) (n : Node) :
    (base? (r.tree false n)).map (usageOfBase r.string) = (base? n).map (usageOfBase r.string) := by
  have hmetaclass : ((r.tree false n).fieldText "name" == "metaclass")
      = (n.fieldText "name" == "metaclass") :=
    h.words.beq_congr (by decide) (by decide) (r.string_fieldText_inside n "name")
  have hhead : (if n.kind == "subscript" then ((r.tree false n).field? "value").getD (r.tree false n)
        else r.tree false n)
      = r.tree false (if n.kind == "subscript" then (n.field? "value").getD n else n) := by
    rw [field?_inside]
    split
    · cases n.field? "value" <;> rfl
    · rfl
  rw [base?, kind_tree, hmetaclass, hhead, base?]
  split
  · split
    · exact congrArg (fun name => some (Base.mark name))
        (string_lastSegment_congr (r.string_fieldText_inside n "value"))
    · rfl
  · generalize (if n.kind == "subscript" then (n.field? "value").getD n else n) = head
    have hname := string_lastSegment_congr (r.string_text_inside head)
    have hmarker : markerBases.contains (lastSegment (r.tree false head).text)
        = markerBases.contains (lastSegment head.text) :=
      (h.words.of_subset (List.subset_append_right _ _)).contains_congr (by decide) hname
    dsimp only
    rw [kind_tree, hmarker]
    split
    · split
      · exact congrArg (fun name => some (Base.mark name)) hname
      · exact congrArg (fun name => some (Base.inherited name)) hname
    · rfl

/-- What a class inherits from. -/
def inheritedOf (bases : List Base) : List String :=
  bases.filterMap fun | .inherited b => some b | .mark _ => none

theorem map_inheritedOf (h : r.SparesPython) (list : Option Node) :
    (inheritedOf (match list.map (r.tree false) with
      | some list => list.named.filterMap base?
      | none => [])).map r.string
      = (inheritedOf (match list with
        | some list => list.named.filterMap base?
        | none => [])).map r.string := by
  have hmapped : ∀ bases : List Base, (inheritedOf bases).map r.string
      = inheritedOf (bases.map (usageOfBase r.string)) := by
    intro bases
    rw [inheritedOf, inheritedOf, List.map_filterMap, List.filterMap_map]
    exact List.filterMap_congr fun base _ => by cases base <;> rfl
  cases list with
  | none => rfl
  | some list =>
    rw [Option.map_some]
    dsimp only
    rw [named_inside, hmapped, map_filterMap_tree r fun n _ => map_base? h n, ← hmapped]

theorem usage_classDeclared (h : r.SparesPython) (path : String)
    (hkind : (n.kind == "class_definition") = true)
    (hclear : n.everywhere r.isClearOfBound = true) :
    (classDeclared path (r.tree o n)).classes.map (·.usage r.string)
      = (classDeclared path n).classes.map (·.usage r.string) := by
  have hdropped : isDropped o n = false := isDropped_of_kind (by rw [beq_iff_eq.1 hkind]; decide)
  have hname : (nonempty? ((r.tree o n).fieldText "name")).map r.string
      = (nonempty? (n.fieldText "name")).map r.string :=
    map_nonempty?_congr (string_fieldText_tree r hdropped (by decide))
  have hinherited := map_inheritedOf h (n.field? "superclasses")
  have hbase := congrArg List.head? hinherited
  have himplements := congrArg List.tail hinherited
  rw [List.head?_map, List.head?_map] at hbase
  rw [← List.map_tail, ← List.map_tail] at himplements
  have hbody : usageOfBody r.string (match (n.field? "body").map (r.tree (isOutside o n)) with
        | some block => block.named.foldl Body.addStatement {}
        | none => {})
      = usageOfBody r.string (match n.field? "body" with
        | some block => block.named.foldl Body.addStatement {}
        | none => {}) := by
    cases hblock : n.field? "body" with
    | none => rfl
    | some block =>
      have hfield : block.label.field = some "body" := by simpa using List.find?_some hblock
      have hstatements := Node.everywhere_of_field? hclear hblock
      rw [Option.map_some]
      dsimp only
      rw [named_tree r (isDropped_of_field hfield)]
      exact foldl_tree r (fun statement hstatement body body' hbody =>
        usage_addStatement h hbody (Node.everywhere_of_named hstatements hstatement)) rfl
  rw [classDeclared, field?_tree r hdropped "body", field?_tree_of_notMem r hdropped (by decide),
    classDeclared]
  rcases none_or_some_of_map_eq hname with ⟨h', h''⟩ | ⟨name', name, h', h'', hsame⟩
  · rw [h', h'']
  · rw [h', h'']
    refine congrArg List.singleton (ClassDecl.usage_congr hsame ?_ ?_ hbase himplements ?_)
    · exact map_usage_of_retyped (congrArg Body.properties hbody)
    · exact congrArg Body.methods hbody
    · exact congrArg Body.constructorParameters hbody

/-! ## 6. Files -/

theorem usage_declared (h : r.SparesPython) (path : String)
    (hclear : n.everywhere r.isClearOfBound = true) :
    (declared path (r.tree o n)).classes.map (·.usage r.string)
      = (declared path n).classes.map (·.usage r.string) := by
  obtain ⟨o', hdefinition⟩ := exists_undecorated_tree (r := r) (o := o) n
  have hfunction : ∀ n, (functionDeclared n).classes = [] := by
    intro n
    unfold functionDeclared
    split <;> rfl
  rw [declared, hdefinition, kind_tree, declared]
  split
  · rename_i hkind
    exact usage_classDeclared h path hkind (everywhere_undecorated hclear)
  split
  · rw [hfunction, hfunction]
  · rfl

end Renaming.Python

/-- **The classes of a Python file** are read the same in what is left of its tree, under the new
name. -/
theorem Renaming.classes_python {r : Renaming} {o : Bool} (h : r.SparesPython) (path : String)
    {root : Node} (hroot : root.kind ∉ importKinds)
    (hclear : root.everywhere r.isClearOfBound = true) :
    (outline path (r.tree o root)).classes.map (·.usage r.string)
      = (outline path root).classes.map (·.usage r.string) := by
  have hclasses : ∀ root : Node, (outline path root).classes
      = root.named.flatMap fun n => (declared path n).classes := by
    intro root
    rw [outline, Declared.classes_concat, List.flatMap_map]
  rw [hclasses, hclasses, named_tree r (isDropped_of_kind hroot), List.flatMap_map,
    List.map_flatMap, List.map_flatMap]
  exact List.flatMap_congr fun n hn =>
    Python.usage_declared h path (Node.everywhere_of_named hclear hn)

end CodeAtlas
