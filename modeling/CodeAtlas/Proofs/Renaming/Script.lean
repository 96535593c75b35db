import CodeAtlas.Proofs.Outline.Comment.Script
import CodeAtlas.Proofs.Outline.TopLevel
import CodeAtlas.Proofs.Renaming.Reference
import CodeAtlas.Proofs.Renaming.Tree

/-!
# One name for another in script files

The relationships read the same of the classes in what a renaming leaves of a tree as they read of
those in the tree, under the new name (`Renaming.classes_script`). The readers go by kinds, fields and
keywords, and compare texts only to the name of constructors and to the modifiers of visibility, which
the renaming must leave alone.
-/

namespace CodeAtlas

open Syntax Outline.Script

/-- The words that the readers of script files know. -/
def Outline.Script.knownWords : List String :=
  ["constructor", "public", "protected", "private"]

namespace Renaming.Script

variable {r : Renaming} {o : Bool}

/-! ## 1. Pieces of declarations -/

theorem map_typeNote (n : Node) (name : String) :
    (typeNote ((r.tree false n).field? name)).map r.string
      = (typeNote (n.field? name)).map r.string := by
  rw [field?_inside]
  cases n.field? name with
  | none => rfl
  | some note =>
    rw [Option.map_some, typeNote_some, typeNote_some, isTypeNote, kind_tree, ← isTypeNote]
    refine map_nonempty?_congr ?_
    split
    · rw [named_inside, List.head?_map]
      cases note.named.head? with
      | none => exact r.string_text_inside note
      | some type => exact r.string_text_inside type
    · exact r.string_text_inside note

theorem ofName?_congr (h : r.Spares Outline.Script.knownWords) {s t : String}
    (hst : r.string s = r.string t) : Visibility.ofName? s = Visibility.ofName? t := by
  have hword : ∀ v : Visibility, (v.name == s) = (v.name == t) := by
    intro v
    have hmem : v.name ∈ Outline.Script.knownWords := by cases v <;> decide
    have hname : IsName v.name.toList := by cases v <;> decide
    rw [BEq.comm, h.beq_congr hmem hname hst, BEq.comm]
  rw [Visibility.ofName?, Visibility.ofName?]
  exact congrArg (fun p => List.find? p [.pub, .prot, .priv]) (funext hword)

theorem visibility_tree (h : r.Spares Outline.Script.knownWords) (n : Node) :
    visibility (r.tree false n) = visibility n := by
  rw [visibility, child?_inside, visibility]
  cases n.child? ["accessibility_modifier"] with
  | none => rfl
  | some modifier =>
    exact congrArg (fun v => Option.getD v Visibility.pub)
      (ofName?_congr h (r.string_text_inside modifier))

theorem map_parameter? (n : Node) :
    (parameter? (r.tree false n)).map (·.usage r.string)
      = (parameter? n).map (·.usage r.string) := by
  rw [parameter?, kind_tree, field?_inside, parameter?]
  split
  · cases n.field? "pattern" with
    | none => rfl
    | some pattern =>
      rw [Option.map_some]
      dsimp only
      rw [kind_tree]
      split
      · rfl
      · exact congrArg (fun type => some { name := "", type : Parameter }) (map_typeNote n "type")
  split
  · rfl
  split
  · rfl
  split
  · rfl
  · rfl

theorem map_parameters (n : Node) (name : String) :
    (parameters ((r.tree false n).field? name)).map (·.usage r.string)
      = (parameters (n.field? name)).map (·.usage r.string) := by
  rw [field?_inside]
  cases n.field? name with
  | none => rfl
  | some list =>
    rw [Option.map_some, parameters, named_inside, parameters]
    exact map_filterMap_tree r fun n _ => map_parameter? n

/-- **The type that a value shows** is the same under the new name. -/
theorem map_inferredType (value : Node) :
    (inferredType (r.tree false value)).map r.string = (inferredType value).map r.string := by
  by_cases harray : (value.kind == "array") = true
  · have hkind : ((r.tree false value).kind == "array") = true := by rwa [kind_tree]
    rw [inferredType_of_array harray, inferredType_of_array hkind, named_inside, List.head?_map]
    cases helement : value.named.head? with
    | none => rfl
    | some element =>
      have hless : sizeOf element < sizeOf value := Node.sizeOf_lt_of_mem_children
        (Node.mem_children_of_mem_named (List.mem_of_mem_head? helement))
      have ih := map_inferredType element
      rw [Option.map_some, Option.bind_some, Option.bind_some]
      refine map_bind_congr ih fun x y hxy => ?_
      have hempty : x.isEmpty = y.isEmpty := by rw [← r.isEmpty_string, hxy, isEmpty_string]
      rw [hempty]
      split
      · rfl
      · exact congrArg some (string_append_congr hxy (by decide))
  · rw [inferredType, inferredType, kind_tree, if_neg harray, if_neg harray, field?_inside]
    split
    · cases value.field? "constructor" with
      | none => rfl
      | some constructor =>
        rw [Option.map_some]
        dsimp only
        rw [kind_tree]
        split
        · exact congrArg some (string_lastSegment_congr (r.string_text_inside constructor))
        · rfl
    · rfl
termination_by sizeOf value

/-! ## 2. Members -/

theorem usage_property (h : r.Spares Outline.Script.knownWords) (n : Node) :
    (property (r.tree false n)).usage r.string = (property n).usage r.string := by
  have hname : ((r.tree false n).firstField? ["name", "property"]).map (·.kind)
      = (n.firstField? ["name", "property"]).map (·.kind) := by
    rw [firstField?_inside, Option.map_map]
    exact congrArg (fun f => Option.map f _) (funext fun name => r.kind_tree name)
  have hvalue : (((r.tree false n).field? "value").bind inferredType).map r.string
      = ((n.field? "value").bind inferredType).map r.string := by
    rw [field?_inside]
    cases n.field? "value" with
    | none => rfl
    | some value => exact map_inferredType value
  have hnote := map_typeNote (r := r) n "type"
  rw [property, property, hname, visibility_tree h, hasToken_inside]
  rcases none_or_some_of_map_eq hnote with ⟨h', h⟩ | ⟨type', type, h', h, hsame⟩
  · rw [h', h]
    exact congrArg (fun type => { name := "", type, visibility := _, isStatic := _ : Property }) hvalue
  · rw [h', h]
    exact congrArg
      (fun type => { name := "", type := some type, visibility := _, isStatic := _ : Property }) hsame

/-- What the relationships read of a member. -/
def usageOfMember (ρ : String → String) : Member → Member
  | .property p => .property (p.usage ρ)
  | .method m => .method (m.usage ρ)
  | .constructor ps => .constructor (ps.map (·.usage ρ))

theorem map_member? (h : r.Spares Outline.Script.knownWords) (n : Node) :
    (member? (r.tree false n)).map (usageOfMember r.string)
      = (member? n).map (usageOfMember r.string) := by
  have hname : ((r.tree false n).fieldText "name" == "constructor")
      = (n.fieldText "name" == "constructor") :=
    h.beq_congr (by decide) (by decide) (r.string_fieldText_inside n "name")
  have hparameters := map_parameters (r := r) n "parameters"
  rw [member?, kind_tree, member?]
  split
  · exact congrArg (fun p => some (Member.property p)) (usage_property h n)
  split
  · dsimp only
    rw [hname]
    split
    · exact congrArg (fun ps => some (Member.constructor ps)) hparameters
    · refine congrArg₂ (fun parameters returnType =>
        some (Member.method { name := "", parameters, returnType })) hparameters ?_
      exact map_typeNote n "return_type"
  · rfl

/-- One sort of members. -/
theorem map_filterMap_members {α : Type} {pick : Member → Option α} {use : α → α}
    (hpick : ∀ m, pick (usageOfMember r.string m) = (pick m).map use) {ms ms' : List Member}
    (hms : ms'.map (usageOfMember r.string) = ms.map (usageOfMember r.string)) :
    (ms'.filterMap pick).map use = (ms.filterMap pick).map use := by
  have hall : ∀ ms : List Member, (ms.map (usageOfMember r.string)).filterMap pick
      = (ms.filterMap pick).map use := by
    intro ms
    rw [List.filterMap_map, List.map_filterMap]
    exact List.filterMap_congr fun m _ => hpick m
  rw [← hall, hms, hall]

/-! ## 3. Classes and interfaces -/

/-- What a heritage holds, under the new name. -/
def heritage (r : Renaming) (found : Option String × List String) : Option String × List String :=
  (found.1.map r.string, found.2.map r.string)

theorem map_typeHead (n : Node) :
    ((r.tree false n).named.map fun type => typeHead type.text).map r.string
      = (n.named.map fun type => typeHead type.text).map r.string := by
  rw [named_inside, List.map_map, List.map_map, List.map_map]
  exact List.map_congr_left fun type _ => string_typeHead_congr (r.string_text_inside type)

theorem heritage_addHeritage (n : Node) {found found' : Option String × List String}
    (h : heritage r found' = heritage r found) :
    heritage r (addHeritage found' (r.tree false n)) = heritage r (addHeritage found n) := by
  obtain ⟨hbase, himplements⟩ := Prod.mk.inj h
  have hnamed : ∀ value : Node, heritage r (some (lastSegment (r.tree false value).text), found'.2)
      = heritage r (some (lastSegment value.text), found.2) := by
    intro value
    exact congrArg₂ Prod.mk (congrArg some (string_lastSegment_congr (r.string_text_inside value)))
      himplements
  have hnone : found'.1.isNone = found.1.isNone := by
    rw [← Option.isNone_map, hbase, Option.isNone_map]
  rw [addHeritage, hnone, field?_inside, named_inside, List.head?_map, addHeritage]
  simp only [kind_tree]
  have hpicked : ∀ value : Node,
      heritage r (if ((r.tree false value).kind == "identifier" ||
          (r.tree false value).kind == "member_expression") = true
        then (some (lastSegment (r.tree false value).text), found'.2) else found')
      = heritage r (if (value.kind == "identifier" || value.kind == "member_expression") = true
        then (some (lastSegment value.text), found.2) else found) := by
    intro value
    rw [kind_tree]
    split
    · exact hnamed value
    · exact h
  split
  · cases n.field? "value" with
    | some value => exact hpicked value
    | none =>
      cases n.named.head? with
      | some value => exact hpicked value
      | none => exact h
  split
  · refine congrArg₂ Prod.mk hbase ?_
    rw [List.map_append, List.map_append, himplements, ← map_typeHead, named_inside]
  split
  · exact hnamed n
  · exact h

/-- The members of a body. -/
theorem map_members (h : r.Spares Outline.Script.knownWords) (body : Option Node) :
    (match body.map (r.tree false) with
      | some body => body.named.filterMap member?
      | none => []).map (usageOfMember r.string)
      = (match body with
        | some body => body.named.filterMap member?
        | none => []).map (usageOfMember r.string) := by
  cases body with
  | none => rfl
  | some body =>
    rw [Option.map_some]
    dsimp only
    rw [named_inside]
    exact map_filterMap_tree r fun n _ => map_member? h n

/-- The name of a declaration, if it has one or there is a default. -/
theorem map_name (n : Node) (defaultName : Option String) :
    ((nonempty? ((r.tree false n).fieldText "name")).or defaultName).map r.string
      = ((nonempty? (n.fieldText "name")).or defaultName).map r.string := by
  have hname := map_nonempty?_congr (r.string_fieldText_inside n "name")
  rw [Option.map_or, Option.map_or, hname]

theorem map_classDecl? (h : r.Spares Outline.Script.knownWords) (path : String) (n : Node)
    (defaultName : Option String) :
    (classDecl? path (r.tree false n) defaultName).map (·.usage r.string)
      = (classDecl? path n defaultName).map (·.usage r.string) := by
  have hname := map_name (r := r) n defaultName
  have hmembers := map_members h (n.field? "body")
  rw [← field?_inside] at hmembers
  have hheritage : heritage r ((match (r.tree false n).child? ["class_heritage"] with
        | some heritage => heritage.named
        | none => []).foldl addHeritage (none, []))
      = heritage r ((match n.child? ["class_heritage"] with
        | some heritage => heritage.named
        | none => []).foldl addHeritage (none, [])) := by
    rw [child?_inside]
    cases n.child? ["class_heritage"] with
    | none => rfl
    | some heritage =>
      rw [Option.map_some]
      dsimp only
      rw [named_inside]
      exact foldl_tree r (fun clause _ found found' => heritage_addHeritage clause) rfl
  obtain ⟨hbase, himplements⟩ := Prod.mk.inj hheritage
  rw [classDecl?, classDecl?]
  rcases none_or_some_of_map_eq hname with ⟨h', h⟩ | ⟨name', name, h', h, hsame⟩
  · rw [h', h]
  · rw [h', h]
    refine congrArg some (ClassDecl.usage_congr hsame ?_ ?_ hbase himplements ?_)
    · exact map_filterMap_members (fun m => by cases m <;> rfl) hmembers
    · exact map_filterMap_members (fun m => by cases m <;> rfl) hmembers
    · dsimp only
      rw [← List.getLast?_map, ← List.getLast?_map]
      exact congrArg List.getLast? (map_filterMap_members (fun m => by cases m <;> rfl) hmembers)

theorem map_signatureProperty? (n : Node) :
    (signatureProperty? (r.tree false n)).map (·.usage r.string)
      = (signatureProperty? n).map (·.usage r.string) := by
  rw [signatureProperty?, kind_tree, signatureProperty?]
  split
  · exact congrArg (fun type => some { name := "", type : Property }) (map_typeNote n "type")
  · rfl

theorem map_signatureMethod? (n : Node) :
    (signatureMethod? (r.tree false n)).map (·.usage r.string)
      = (signatureMethod? n).map (·.usage r.string) := by
  rw [signatureMethod?, kind_tree, signatureMethod?]
  split
  · exact congrArg₂ (fun parameters returnType =>
      some { name := "", parameters, returnType : Method })
      (map_parameters n "parameters") (map_typeNote n "return_type")
  · rfl

/-- One sort of signatures in the body of an interface. -/
theorem map_signatures {α : Type} {pick : Node → Option α} {use : α → α}
    (hpick : ∀ n, (pick (r.tree false n)).map use = (pick n).map use) (body : Option Node) :
    ((match body.map (r.tree false) with
      | some body => body.named
      | none => []).filterMap pick).map use
      = ((match body with
        | some body => body.named
        | none => []).filterMap pick).map use := by
  cases body with
  | none => rfl
  | some body =>
    rw [Option.map_some]
    dsimp only
    rw [named_inside]
    exact map_filterMap_tree r fun n _ => hpick n

theorem map_bases (clause : Option Node) :
    (match clause.map (r.tree false) with
      | some clause => clause.named.map fun type : Node => typeHead type.text
      | none => []).map r.string
      = (match clause with
        | some clause => clause.named.map fun type : Node => typeHead type.text
        | none => []).map r.string := by
  cases clause with
  | none => rfl
  | some clause => exact map_typeHead clause

theorem map_interfaceDecl? (path : String) (n : Node) :
    (interfaceDecl? path (r.tree false n)).map (·.asClass.usage r.string)
      = (interfaceDecl? path n).map (·.asClass.usage r.string) := by
  have hname := map_nonempty?_congr (r.string_fieldText_inside n "name")
  have hbases := map_bases (r := r) (n.child? ["extends_type_clause", "extends_clause"])
  have hbase := congrArg List.head? hbases
  have himplements := congrArg List.tail hbases
  rw [List.head?_map, List.head?_map] at hbase
  rw [← List.map_tail, ← List.map_tail] at himplements
  rw [interfaceDecl?, field?_inside, child?_inside, interfaceDecl?]
  rcases none_or_some_of_map_eq hname with ⟨h', h⟩ | ⟨name', name, h', h, hsame⟩
  · rw [h', h]
    rfl
  · rw [h', h]
    refine congrArg some (ClassDecl.usage_congr hsame ?_ ?_ hbase himplements rfl)
    · exact map_signatures map_signatureProperty? (n.field? "body")
    · exact map_signatures map_signatureMethod? (n.field? "body")

/-! ## 4. Statements -/

/-- A node that declares no type adds no class. -/
theorem classes_declared_eq_nil (path : String) (isExported : Bool) {n : Node}
    (h : isTypeDeclaration n = false) : (declared path isExported n).classes = [] := by
  rw [List.eq_nil_iff_forall_not_mem]
  intro c hc
  rw [(adds_of_mem_declared hc).1] at h
  cases h

theorem isTypeDeclaration_tree (n : Node) :
    isTypeDeclaration (r.tree o n) = isTypeDeclaration n := by
  rw [isTypeDeclaration, kind_tree, isTypeDeclaration]

theorem classes_declared (h : r.Spares Outline.Script.knownWords) (path : String)
    (isExported : Bool) (n : Node) :
    (declared path isExported (r.tree o n)).classes.map (·.usage r.string)
      = (declared path isExported n).classes.map (·.usage r.string) := by
  by_cases htype : isTypeDeclaration n = true
  · have hkind : n.kind = "class_declaration" ∨ n.kind = "abstract_class_declaration" ∨
        n.kind = "interface_declaration" ∨ n.kind = "enum_declaration" := by
      simpa [isTypeDeclaration] using htype
    rw [tree_eq_inside_of_kind r (by rcases hkind with h | h | h | h <;> rw [h] <;> decide)
      (by rcases hkind with h | h | h | h <;> rw [h] <;> decide)]
    rw [declared, kind_tree, declared]
    split
    · rcases none_or_some_of_map_eq (map_classDecl? h path n none)
        with ⟨h', h⟩ | ⟨c', c, h', h, hsame⟩
      · rw [h', h]
      · rw [h', h]
        exact congrArg List.singleton hsame
    split
    · rcases none_or_some_of_map_eq (map_interfaceDecl? (r := r) path n)
        with ⟨h', h⟩ | ⟨i', i, h', h, hsame⟩
      · rw [h', h]
      · rw [h', h]
        exact congrArg List.singleton hsame
    split
    · rcases none_or_some_of_map_eq (map_nonempty?_congr (r.string_fieldText_inside n "name"))
        with ⟨h', h⟩ | ⟨name', name, h', h, hsame⟩
      · rw [h', h]
      · rw [h', h]
        exact congrArg (fun name => [{ name : ClassDecl }]) hsame
    -- no other kind is one of a declaration of a type
    · rename_i hclass hinterface henum
      rw [Bool.or_eq_true, beq_iff_eq, beq_iff_eq] at hclass
      rw [beq_iff_eq] at hinterface henum
      exact absurd hkind (by tauto)
  · have htype : isTypeDeclaration n = false := Bool.eq_false_iff.2 htype
    rw [classes_declared_eq_nil path isExported htype,
      classes_declared_eq_nil path isExported ((isTypeDeclaration_tree n).trans htype)]

/-- What a class without a name is called by where it is exported is no matter. -/
theorem classes_exportStatement (h : r.Spares Outline.Script.knownWords) (path : String)
    (n : Node) :
    (exportStatement path (r.tree false n)).1.classes.map (·.usage r.string)
      = (exportStatement path n).1.classes.map (·.usage r.string) := by
  rw [exportStatement, field?_inside, field?_inside, child?_inside, field?_inside, exportStatement]
  cases n.field? "declaration" with
  | some declaration => exact classes_declared h path true declaration
  | none =>
    cases n.field? "source" with
    | some source => rfl
    | none =>
      cases n.child? ["export_clause"] with
      | some clause => rfl
      | none =>
        cases n.field? "value" with
        | none => rfl
        | some value =>
          simp only [Option.map_none, Option.map_some, kind_tree]
          split
          · rfl
          split
          · rcases none_or_some_of_map_eq (map_classDecl? h path value (some "default"))
              with ⟨h', h⟩ | ⟨c', c, h', h, hsame⟩
            · rw [h', h]
            · rw [h', h]
              exact congrArg List.singleton hsame
          · rfl

theorem classes_statement (h : r.Spares Outline.Script.knownWords) (path : String) (n : Node) :
    (statement path (r.tree o n)).1.classes.map (·.usage r.string)
      = (statement path n).1.classes.map (·.usage r.string) := by
  rw [statement, kind_tree, statement]
  split
  · rename_i hkind
    rw [tree_eq_inside_of_kind r (by rw [beq_iff_eq.1 hkind]; decide)
      (by rw [beq_iff_eq.1 hkind]; decide)]
    exact classes_exportStatement h path n
  split
  · rfl
  · exact classes_declared h path false n

end Renaming.Script

/-- **The classes of a script file** are read the same in what is left of its tree, under the new
name. -/
theorem Renaming.classes_script {r : Renaming} {o : Bool}
    (h : r.Spares Outline.Script.knownWords) (language : Language) (path : String) {root : Node}
    (hroot : root.kind ∉ importKinds) :
    (outline language path (r.tree o root)).classes.map (·.usage r.string)
      = (outline language path root).classes.map (·.usage r.string) := by
  have hclasses : ∀ root : Node, (outline language path root).classes
      = root.named.flatMap fun n => (statement path n).1.classes := by
    intro root
    rw [outline, Declared.classes_concat, List.flatMap_map, List.flatMap_map]
  rw [hclasses, hclasses, named_tree r (isDropped_of_kind hroot), List.flatMap_map,
    List.map_flatMap, List.map_flatMap]
  exact List.flatMap_congr fun n _ => Script.classes_statement h path n

end CodeAtlas
