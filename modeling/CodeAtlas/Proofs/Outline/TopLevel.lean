import CodeAtlas.Proofs.Outline.Place

/-!
# Types declared at the top of a file

A type is declared at the top of a file by a statement of the file: a script statement may also
export the declaration, or a class that stands for a value, and a Python statement may decorate it
(`DeclaresAtTop`). Every such declaration with a name gives the outline a class of that name and
line (`exists_class_of_declaresAtTop`), so its name is one that the file declares; and outside
Java, where types nested in others are classes too, no other class is in the outline
(`exists_declaresAtTop_of_mem`).
-/

namespace CodeAtlas.Outline

open Syntax

/-! ## 1. Declarations -/

/-- Whether a node of a script file declares a class, an interface or an enumeration. -/
def Script.isTypeDeclaration (node : Node) : Bool :=
  ["class_declaration", "abstract_class_declaration", "interface_declaration",
    "enum_declaration"].contains node.kind

/-- **A statement of a script file holds a declaration**: it is the declaration, or exports it, or
exports a class as a value. -/
inductive Script.Holds (statement declaration : Node) : Prop
  | itself : isTypeDeclaration declaration = true → statement = declaration →
      Holds statement declaration
  | exported : statement.kind = "export_statement" →
      statement.field? "declaration" = some declaration → isTypeDeclaration declaration = true →
      Holds statement declaration
  | value : statement.kind = "export_statement" → statement.field? "declaration" = none →
      statement.field? "source" = none → statement.child? ["export_clause"] = none →
      statement.field? "value" = some declaration → declaration.kind = "class" →
      Holds statement declaration

/-- **A node declares a type at the top of a file**: a class, an interface, an enumeration or a
record. -/
def DeclaresAtTop (language : Language) (root declaration : Node) : Prop :=
  match language with
  | .java => declaration ∈ root.named ∧ Java.isTypeDeclaration declaration = true
  | .python => declaration.kind = "class_definition" ∧
      ∃ statement ∈ root.named, (Python.undecorated statement).2 = declaration
  | .typescript | .javascript | .go => ∃ statement ∈ root.named, Script.Holds statement declaration

/-- **A class stands for a declaration**: it has its line, and its name or, if it has none, the
default name. -/
structure StandsFor (c : ClassDecl) (declaration : Node) : Prop where
  line : c.line = declaration.line
  name : c.name = (nonempty? (declaration.fieldText "name")).getD "default"

theorem nonempty?_of_ne {s : String} (h : s ≠ "") : nonempty? s = some s :=
  if_neg (mt String.isEmpty_iff.1 h)

theorem StandsFor.name_eq {c : ClassDecl} {declaration : Node} (h : StandsFor c declaration)
    (hname : declaration.fieldText "name" ≠ "") : c.name = declaration.fieldText "name" := by
  rw [h.name, nonempty?_of_ne hname]
  rfl

variable {path : String} {statement declaration root : Node} {c : ClassDecl}

/-! ## 2. Script files -/

theorem Script.standsFor_of_classDecl? {defaultName : Option String}
    (hdefault : ∀ name ∈ defaultName, name = "default")
    (h : Script.classDecl? path declaration defaultName = some c) : StandsFor c declaration := by
  unfold Script.classDecl? at h
  split at h
  · cases h
  · rename_i name hname
    cases h
    refine ⟨rfl, ?_⟩
    cases hfield : nonempty? (declaration.fieldText "name") with
    | some field =>
      rw [hfield] at hname
      exact (Option.some.inj hname).symm
    | none =>
      rw [hfield, Option.none_or] at hname
      exact hdefault name hname

theorem Script.classes_functionDeclared (isExported : Bool) (node : Node) :
    (Script.functionDeclared isExported node).classes = [] := by
  unfold Script.functionDeclared
  split <;> rfl

theorem Script.classes_variableDeclared (isExported : Bool) (node : Node) :
    (Script.variableDeclared isExported node).classes = [] := by
  unfold Script.variableDeclared
  split
  · rfl
  · split
    · rfl
    · dsimp only
      split <;> rfl

/-- **How a class comes from a declaration of a script file**: a class has one for itself, an
interface the one that mirrors it, an enumeration one without members. -/
inductive Script.Adds (path : String) (declaration : Node) (c : ClassDecl) : Prop
  | ofClass {defaultName : Option String} : (∀ name ∈ defaultName, name = "default") →
      Script.classDecl? path declaration defaultName = some c → Adds path declaration c
  | ofInterface {i : InterfaceDecl} : Script.interfaceDecl? path declaration = some i →
      c = i.asClass → Adds path declaration c
  | ofEnum {name : String} : nonempty? (declaration.fieldText "name") = some name →
      c = { name, line := declaration.line, path } → Adds path declaration c

theorem Script.Adds.standsFor (h : Script.Adds path declaration c) : StandsFor c declaration := by
  cases h with
  | ofClass hdefault hclass => exact Script.standsFor_of_classDecl? hdefault hclass
  | ofInterface hinterface hc =>
    obtain ⟨name, hname, rfl⟩ := Option.map_eq_some_iff.1 hinterface
    subst hc
    exact ⟨rfl, by rw [hname]; rfl⟩
  | ofEnum hname hc =>
    subst hc
    exact ⟨rfl, by rw [hname]; rfl⟩

/-- Only declarations of types add classes. -/
theorem Script.adds_of_mem_declared {isExported : Bool}
    (h : c ∈ (Script.declared path isExported declaration).classes) :
    Script.isTypeDeclaration declaration = true ∧ Script.Adds path declaration c := by
  unfold Script.declared at h
  split at h
  · rename_i hkind
    split at h
    · rename_i found hfound
      rw [List.mem_singleton.1 h]
      refine ⟨?_, .ofClass (fun _ h => absurd h (Option.not_mem_none _)) hfound⟩
      rw [Bool.or_eq_true, beq_iff_eq, beq_iff_eq] at hkind
      rcases hkind with hkind | hkind <;> rw [Script.isTypeDeclaration, hkind] <;> decide
    · exact absurd h List.not_mem_nil
  split at h
  · rename_i hkind
    split at h
    · rename_i i hi
      refine ⟨?_, .ofInterface hi (List.mem_singleton.1 h)⟩
      rw [Script.isTypeDeclaration, beq_iff_eq.1 hkind]
      decide
    · exact absurd h List.not_mem_nil
  split at h
  · rename_i hkind
    split at h
    · rename_i name hname
      refine ⟨?_, .ofEnum hname (List.mem_singleton.1 h)⟩
      rw [Script.isTypeDeclaration, beq_iff_eq.1 hkind]
      decide
    · exact absurd h List.not_mem_nil
  -- what is left adds names and functions only
  split at h
  · split at h <;> exact absurd h List.not_mem_nil
  split at h
  · rw [Script.classes_functionDeclared] at h
    exact absurd h List.not_mem_nil
  split at h
  · rw [Declared.classes_concat, List.mem_flatMap] at h
    obtain ⟨d, hd, hc⟩ := h
    obtain ⟨declarator, -, rfl⟩ := List.mem_map.1 hd
    rw [Script.classes_variableDeclared] at hc
    exact absurd hc List.not_mem_nil
  · exact absurd h List.not_mem_nil

/-- A declaration of a type with a name adds a class. -/
theorem Script.exists_mem_declared (isExported : Bool)
    (h : Script.isTypeDeclaration declaration = true) (hname : declaration.fieldText "name" ≠ "") :
    ∃ c ∈ (Script.declared path isExported declaration).classes, StandsFor c declaration := by
  suffices hne : (Script.declared path isExported declaration).classes ≠ [] by
    obtain ⟨c, hc⟩ := List.exists_mem_of_ne_nil _ hne
    exact ⟨c, hc, (Script.adds_of_mem_declared hc).2.standsFor⟩
  have hsome := nonempty?_of_ne hname
  have hkind : declaration.kind = "class_declaration" ∨
      declaration.kind = "abstract_class_declaration" ∨
      declaration.kind = "interface_declaration" ∨ declaration.kind = "enum_declaration" := by
    simpa [Script.isTypeDeclaration] using h
  unfold Script.declared
  rcases hkind with hkind | hkind | hkind | hkind <;> rw [hkind]
  · simp [Script.classDecl?, hsome]
  · simp [Script.classDecl?, hsome]
  · simp [Script.interfaceDecl?, hsome]
  · simp [hsome]

/-- The classes of a statement come from the declarations that it holds. -/
theorem Script.exists_holds_of_mem_statement
    (h : c ∈ (Script.statement path statement).1.classes) :
    ∃ declaration, Script.Holds statement declaration ∧ Script.Adds path declaration c := by
  unfold Script.statement at h
  split at h
  · rename_i hkind
    have hkind := beq_iff_eq.1 hkind
    unfold Script.exportStatement at h
    dsimp only at h
    split at h
    · rename_i declaration hdeclaration
      obtain ⟨htype, hadds⟩ := Script.adds_of_mem_declared h
      exact ⟨declaration, .exported hkind hdeclaration htype, hadds⟩
    · exact absurd h List.not_mem_nil
    · exact absurd h List.not_mem_nil
    · rename_i value hdeclaration hsource hclause hvalue
      split at h
      · exact absurd h List.not_mem_nil
      · split at h
        · rename_i hclass
          split at h
          · rename_i found hfound
            rw [List.mem_singleton.1 h]
            refine ⟨value, .value hkind hdeclaration hsource hclause hvalue (beq_iff_eq.1 hclass), ?_⟩
            exact .ofClass (fun name hname => Option.some.inj hname.symm) hfound
          · exact absurd h List.not_mem_nil
        · exact absurd h List.not_mem_nil
    · exact absurd h List.not_mem_nil
  · split at h
    · exact absurd h List.not_mem_nil
    · obtain ⟨htype, hadds⟩ := Script.adds_of_mem_declared h
      exact ⟨statement, .itself htype rfl, hadds⟩

/-- A statement has a class for the declaration with a name that it holds. -/
theorem Script.exists_mem_statement (h : Script.Holds statement declaration)
    (hname : declaration.fieldText "name" ≠ "") :
    ∃ c ∈ (Script.statement path statement).1.classes, StandsFor c declaration := by
  cases h with
  | itself htype hsame =>
    subst hsame
    have hexport : ¬ (statement.kind == "export_statement") = true := by
      intro hkind
      rw [Script.isTypeDeclaration, beq_iff_eq.1 hkind] at htype
      exact absurd htype (by decide)
    have himport : ¬ (statement.kind == "import_statement") = true := by
      intro hkind
      rw [Script.isTypeDeclaration, beq_iff_eq.1 hkind] at htype
      exact absurd htype (by decide)
    rw [Script.statement, if_neg hexport, if_neg himport]
    exact Script.exists_mem_declared false htype hname
  | exported hkind hdeclaration htype =>
    rw [Script.statement, if_pos (beq_iff_eq.2 hkind), Script.exportStatement, hdeclaration]
    exact Script.exists_mem_declared true htype hname
  | value hkind hdeclaration hsource hclause hvalue hclass =>
    rw [Script.statement, if_pos (beq_iff_eq.2 hkind), Script.exportStatement, hdeclaration, hsource,
      hclause, hvalue]
    obtain ⟨found, hfound⟩ : ∃ found, Script.classDecl? path declaration (some "default")
        = some found := by
      rw [Script.classDecl?, nonempty?_of_ne hname]
      exact ⟨_, rfl⟩
    refine ⟨found, ?_, Script.standsFor_of_classDecl? (fun name h => Option.some.inj h.symm) hfound⟩
    dsimp only
    rw [hclass, if_neg (by decide), if_pos (by decide), hfound]
    exact List.mem_singleton_self found

/-! ## 3. Java and Python files -/

theorem Java.standsFor_of_mem_ownDeclared {name : String}
    (hname : nonempty? (declaration.fieldText "name") = some name)
    (h : c ∈ (Java.ownDeclared path name declaration).classes) : StandsFor c declaration := by
  unfold Java.ownDeclared at h
  split at h
  · rw [List.mem_singleton.1 h]
    exact ⟨rfl, by rw [hname]; rfl⟩
  · split at h <;>
    · rw [List.mem_singleton.1 h]
      exact ⟨rfl, by rw [hname]; rfl⟩

/-- A Java type with a name adds a class for itself after those nested in it. -/
theorem Java.exists_mem_declared (h : Java.isTypeDeclaration declaration = true)
    (hname : declaration.fieldText "name" ≠ "") :
    ∃ c ∈ (Java.declared path declaration).classes, StandsFor c declaration := by
  have hsome := nonempty?_of_ne hname
  obtain ⟨c, hc⟩ : ∃ c, c ∈ (Java.ownDeclared path (declaration.fieldText "name")
      declaration).classes := by
    unfold Java.ownDeclared
    split
    · exact ⟨_, List.mem_singleton_self _⟩
    · split <;> exact ⟨_, List.mem_singleton_self _⟩
  refine ⟨c, ?_, Java.standsFor_of_mem_ownDeclared hsome hc⟩
  unfold Java.declared
  rw [if_pos h, hsome]
  exact List.mem_append_right _ hc

/-- A Python class has a class for itself, and no other. -/
theorem Python.standsFor_of_mem_classDeclared
    (h : c ∈ (Python.classDeclared path declaration).classes) : StandsFor c declaration := by
  unfold Python.classDeclared at h
  split at h
  · exact absurd h List.not_mem_nil
  · rename_i name hname
    rw [List.mem_singleton.1 h]
    exact ⟨rfl, by rw [hname]; rfl⟩

theorem Python.exists_mem_classDeclared (hname : declaration.fieldText "name" ≠ "") :
    ∃ c ∈ (Python.classDeclared path declaration).classes, StandsFor c declaration := by
  suffices hne : (Python.classDeclared path declaration).classes ≠ [] by
    obtain ⟨c, hc⟩ := List.exists_mem_of_ne_nil _ hne
    exact ⟨c, hc, Python.standsFor_of_mem_classDeclared hc⟩
  rw [Python.classDeclared, nonempty?_of_ne hname]
  exact List.cons_ne_nil _ _

/-- Only the classes of a Python file add classes. -/
theorem Python.mem_classDeclared_of_mem_declared
    (h : c ∈ (Python.declared path statement).classes) :
    (Python.undecorated statement).2.kind = "class_definition" ∧
      c ∈ (Python.classDeclared path (Python.undecorated statement).2).classes := by
  unfold Python.declared at h
  dsimp only at h
  split at h
  · rename_i hkind
    exact ⟨beq_iff_eq.1 hkind, h⟩
  · split at h
    · unfold Python.functionDeclared at h
      split at h <;> exact absurd h List.not_mem_nil
    · exact absurd h List.not_mem_nil

/-! ## 4. Whole files -/

/-- What a statement of a file declares. -/
def declaredBy (language : Language) (path : String) (statement : Node) : Declared :=
  match language with
  | .java => Java.declared path statement
  | .python => Python.declared path statement
  | .typescript | .javascript | .go => (Script.statement path statement).1

/-- The classes of a file are those of its statements. -/
theorem classes_ofSoundTree (language : Language) (path : String) (root : Node) :
    (ofSoundTree language path root).classes
      = root.named.flatMap fun statement => (declaredBy language path statement).classes := by
  have hscript : (Declared.concat ((root.named.map (Script.statement path)).map (·.1))).classes
      = root.named.flatMap fun statement => (Script.statement path statement).1.classes := by
    rw [Declared.classes_concat, List.flatMap_map, List.flatMap_map]
  cases language with
  | java | python => exact (Declared.classes_concat _).trans (List.flatMap_map _ _ _)
  | typescript | javascript | go => exact hscript

/-- **A type declared at the top of a file under a name has a class** of its name and line. -/
theorem exists_class_of_declaresAtTop {language : Language}
    (h : DeclaresAtTop language root declaration) (hname : declaration.fieldText "name" ≠ "") :
    ∃ c ∈ (ofSoundTree language path root).classes,
      c.name = declaration.fieldText "name" ∧ c.line = declaration.line := by
  obtain ⟨statement, hstatement, c, hc, hstands⟩ : ∃ statement ∈ root.named,
      ∃ c ∈ (declaredBy language path statement).classes, StandsFor c declaration := by
    cases language with
    | java => exact ⟨declaration, h.1, Java.exists_mem_declared h.2 hname⟩
    | python =>
      obtain ⟨hkind, statement, hstatement, rfl⟩ := h
      refine ⟨statement, hstatement, ?_⟩
      rw [declaredBy, Python.declared, if_pos (beq_iff_eq.2 hkind)]
      exact Python.exists_mem_classDeclared hname
    | typescript | javascript | go =>
      obtain ⟨statement, hstatement, hholds⟩ := h
      exact ⟨statement, hstatement, Script.exists_mem_statement hholds hname⟩
  refine ⟨c, ?_, hstands.name_eq hname, hstands.line⟩
  rw [classes_ofSoundTree]
  exact List.mem_flatMap.2 ⟨statement, hstatement, hc⟩

/-- **Every class of a file stands for a type declared at its top**, but for those nested in the
types of a Java file. -/
theorem exists_declaresAtTop_of_mem {language : Language} (hjava : language ≠ .java)
    (h : c ∈ (ofSoundTree language path root).classes) :
    ∃ declaration, DeclaresAtTop language root declaration ∧ StandsFor c declaration := by
  rw [classes_ofSoundTree] at h
  obtain ⟨statement, hstatement, hc⟩ := List.mem_flatMap.1 h
  cases language with
  | java => exact absurd rfl hjava
  | python =>
    obtain ⟨hkind, hc⟩ := Python.mem_classDeclared_of_mem_declared hc
    exact ⟨_, ⟨hkind, statement, hstatement, rfl⟩, Python.standsFor_of_mem_classDeclared hc⟩
  | typescript | javascript | go =>
    obtain ⟨declaration, hholds, hadds⟩ := Script.exists_holds_of_mem_statement hc
    exact ⟨declaration, ⟨statement, hstatement, hholds⟩, hadds.standsFor⟩

/-- **A file declares the name** of every type that it declares at its top. -/
theorem mem_declaredNames_of_declaresAtTop {language : Language}
    (h : DeclaresAtTop language root declaration) (hname : declaration.fieldText "name" ≠ "") :
    declaration.fieldText "name" ∈ (ofSoundTree language path root).declaredNames := by
  obtain ⟨c, hc, hsame, -⟩ := @exists_class_of_declaresAtTop path _ _ _ h hname
  rw [declaredNames, List.mem_eraseDups]
  exact List.mem_append_left _ (List.mem_map.2 ⟨c, hc, hsame⟩)

end CodeAtlas.Outline
