import CodeAtlas.Proofs.Outline.Comment.Java
import CodeAtlas.Proofs.Outline.Assembly
import Mathlib.Data.List.Forall2

/-!
# Interfaces and their class forms

The classes of an outline that are interfaces are the class forms of its interfaces, one for each
and in the same order (`Declared.Assembled.forall₂`). A declaration that adds an interface adds its
class form at the same time, so both lists stay in step while the declarations of a file are put
together, in whatever order these are nested. It follows that the classes alone name everything
that a file declares (`Outline.mirrors_ofTree`).
-/

namespace CodeAtlas

/-- The classes that are the class form of an interface. -/
def interfaceForms (classes : List ClassDecl) : List ClassDecl :=
  classes.filter (·.kind == .interface)

theorem interfaceForms_append (a b : List ClassDecl) :
    interfaceForms (a ++ b) = interfaceForms a ++ interfaceForms b :=
  List.filter_append a b

theorem interfaceForms_singleton_of_class {c : ClassDecl} (h : c.kind = .cls) :
    interfaceForms [c] = [] := by
  simp [interfaceForms, h]

theorem interfaceForms_singleton_of_interface {c : ClassDecl} (h : c.kind = .interface) :
    interfaceForms [c] = [c] := by
  simp [interfaceForms, h]

namespace Declared

/-- **Interfaces and their class forms stay in step.** -/
theorem Assembled.forall₂ {d : Declared} {path : String} (h : d.Assembled path) :
    List.Forall₂ InterfaceDecl.MirroredBy d.interfaces (interfaceForms d.classes) := by
  induction h with
  | nothing hclasses hinterfaces =>
    rw [hclasses, hinterfaces]
    exact .nil
  | ofClass hclasses hinterfaces hkind =>
    rw [hclasses, hinterfaces, interfaceForms_singleton_of_class hkind]
    exact .nil
  | ofInterface hclasses hinterfaces hmirrored =>
    rw [hclasses, hinterfaces, interfaceForms_singleton_of_interface hmirrored.kind]
    exact .cons hmirrored .nil
  | @append a b _ _ iha ihb =>
    have hforms : interfaceForms (a ++ b).classes
        = interfaceForms a.classes ++ interfaceForms b.classes :=
      interfaceForms_append a.classes b.classes
    rw [hforms]
    exact List.rel_append iha ihb

end Declared

namespace Outline

open Syntax

theorem forall₂_ofSoundTree (language : Language) (path : String) (root : Node) :
    List.Forall₂ InterfaceDecl.MirroredBy (ofSoundTree language path root).interfaces
      (interfaceForms (ofSoundTree language path root).classes) := by
  obtain ⟨d, hd, hclasses, hinterfaces⟩ := exists_assembled language path root
  rw [hclasses, hinterfaces]
  exact hd.forall₂

/-- Where interfaces are mirrored by classes, the classes name everything that is declared. -/
theorem mem_declaredNames_of_forall₂ {o : Outline}
    (h : List.Forall₂ InterfaceDecl.MirroredBy o.interfaces (interfaceForms o.classes))
    (name : String) : name ∈ o.declaredNames ↔ ∃ c ∈ o.classes, c.name = name := by
  have hnames : o.interfaces.map (·.name) = (interfaceForms o.classes).map (·.name) := by
    rw [← List.forall₂_eq_eq_eq, List.forall₂_map_left_iff, List.forall₂_map_right_iff]
    exact h.imp fun i c hmirrored => hmirrored.name.symm
  have hforms : interfaceForms o.classes ⊆ o.classes := fun c hc => List.mem_of_mem_filter hc
  rw [declaredNames, List.mem_eraseDups, List.mem_append, hnames, List.mem_map, List.mem_map]
  constructor
  · rintro (hclass | ⟨c, hc, hname⟩)
    · exact hclass
    · exact ⟨c, hforms hc, hname⟩
  · exact Or.inl

/-- **Interfaces are mirrored one to one.** A tree without faults has an outline whose classes that
are interfaces are the class forms of its interfaces, position by position, and whose classes name
exactly what it declares. -/
theorem mirrors_ofTree {language : Language} {path : String} {root : Node}
    (h : root.firstFault? = none) :
    ∃ o, ofTree language path root = .ok o ∧
      o.interfaces.length = (interfaceForms o.classes).length ∧
      List.Forall₂ InterfaceDecl.MirroredBy o.interfaces (interfaceForms o.classes) ∧
      ∀ name, name ∈ o.declaredNames ↔ ∃ c ∈ o.classes, c.name = name := by
  have hmirrored := forall₂_ofSoundTree language path root
  exact ⟨_, ofTree_of_sound h, hmirrored.length_eq, hmirrored, mem_declaredNames_of_forall₂ hmirrored⟩

/-! ## An interface in an interface -/

/-- The inner interface in the tree of `interface A extends X, Y { interface B {} }`. -/
def innerInterface : Node :=
  let rule := (Source.ofString "interface A extends X, Y \x7b interface B \x7b\x7d \x7d").rule
  let token := (Source.ofString "interface A extends X, Y \x7b interface B \x7b\x7d \x7d").token
  rule 10 "interface_declaration" none 27 41
    [token 11 "interface" 27 36, rule 12 "identifier" (some "name") 37 38 [],
      rule 13 "interface_body" (some "body") 39 41 [token 14 "\x7b" 39 40, token 15 "\x7d" 40 41]]

/-- The outer interface in that tree. -/
def outerInterface : Node :=
  let rule := (Source.ofString "interface A extends X, Y \x7b interface B \x7b\x7d \x7d").rule
  let token := (Source.ofString "interface A extends X, Y \x7b interface B \x7b\x7d \x7d").token
  rule 1 "interface_declaration" none 0 43
    [token 2 "interface" 0 9, rule 3 "identifier" (some "name") 10 11 [],
      rule 4 "extends_interfaces" none 12 24
        [token 5 "extends" 12 19,
          rule 6 "type_list" none 20 24
            [rule 7 "type_identifier" none 20 21 [], token 8 "," 21 22,
              rule 9 "type_identifier" none 23 24 []]],
      rule 16 "interface_body" (some "body") 25 43
        [token 17 "\x7b" 25 26, innerInterface, token 18 "\x7d" 42 43]]

/-- The tree of `interface A extends X, Y { interface B {} }`. -/
def nestedInterfaces : Node :=
  (Source.ofString "interface A extends X, Y \x7b interface B \x7b\x7d \x7d").rule 0 "program" none 0 43
    [outerInterface]

/-- The inner interface comes first in both lists. -/
theorem mirrors_ofTree_nestedInterfaces :
    nestedInterfaces.firstFault? = none ∧
      ∃ o, ofTree .java "/A.java" nestedInterfaces = .ok o ∧
        o.interfaces.map (fun i => (i.name, i.bases)) = [("B", []), ("A", ["X", "Y"])] ∧
        o.interfaces.length = (interfaceForms o.classes).length ∧
        List.Forall₂ InterfaceDecl.MirroredBy o.interfaces (interfaceForms o.classes) ∧
        ∀ name, name ∈ o.declaredNames ↔ ∃ c ∈ o.classes, c.name = name := by
  have hsound : nestedInterfaces.firstFault? = none :=
    Option.isNone_iff_eq_none.1 (by decide +kernel)
  obtain ⟨o, htree, hlength, hmirrored, hnames⟩ :=
    @mirrors_ofTree .java "/A.java" nestedInterfaces hsound
  refine ⟨hsound, o, htree, ?_, hlength, hmirrored, hnames⟩
  have hinner : Java.declared "/A.java" innerInterface
      = Declared.concat [] ++ Java.ownDeclared "/A.java" "B" innerInterface :=
    Java.declared_of_name (by decide +kernel) (by decide +kernel)
  have houter : Java.declared "/A.java" outerInterface
      = Declared.concat [Java.declared "/A.java" innerInterface] ++
          Java.ownDeclared "/A.java" "A" outerInterface :=
    Java.declared_of_name (by decide +kernel) (by decide +kernel)
  have ho : o.interfaces = (Declared.concat [Java.declared "/A.java" outerInterface]).interfaces := by
    rw [ofTree_of_sound hsound] at htree
    rw [← Except.ok.inj htree]
    rfl
  rw [ho, houter, hinner]
  decide +kernel

end Outline

end CodeAtlas
