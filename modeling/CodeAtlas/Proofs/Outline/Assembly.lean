import CodeAtlas.Outline.OfTree

/-!
# How outlines are put together

The readers of all languages go through a file declaration by declaration and put together what
each adds. One declaration adds no class, or a class of its own, or an interface together with the
class form that mirrors it (`Declared.Assembled`). This is the one place where the readers are
looked at for it: `Outline.exists_assembled` says that the classes and interfaces of every outline
come about in this way, and what holds of single declarations and is passed on by appending follows
for whole files by induction on it.
-/

namespace CodeAtlas

/-! ## 1. Mirrors -/

/-- **A class mirrors an interface** if it is the class form of it: the two have the same name,
members, line and file, and what the interface extends is what the class extends, if anything,
followed by what it implements. -/
structure InterfaceDecl.MirroredBy (i : InterfaceDecl) (c : ClassDecl) : Prop where
  kind : c.kind = .interface
  name : c.name = i.name
  properties : c.properties = i.properties
  methods : c.methods = i.methods
  bases : i.bases = c.base.toList ++ c.implements
  line : c.line = i.line
  path : c.path = i.path

/-- A list is its first item, if there is one, and the rest. -/
theorem toList_head?_append_tail {α : Type} (items : List α) :
    items = items.head?.toList ++ items.tail := by
  cases items with
  | nil => rfl
  | cons a items => rfl

theorem InterfaceDecl.mirroredBy_asClass (i : InterfaceDecl) : i.MirroredBy i.asClass where
  kind := rfl
  name := rfl
  properties := rfl
  methods := rfl
  bases := toList_head?_append_tail i.bases
  line := rfl
  path := rfl

/-! ## 2. Declarations put together -/

namespace Declared

/-- **What declarations of a file add**, one after the other. -/
inductive Assembled (path : String) : Declared → Prop where
  | nothing {d : Declared} : d.classes = [] → d.interfaces = [] → Assembled path d
  | ofClass {d : Declared} {c : ClassDecl} : d.classes = [c] → d.interfaces = [] →
      c.kind = .cls → c.path = path → Assembled path d
  | ofInterface {d : Declared} {c : ClassDecl} {i : InterfaceDecl} : d.classes = [c] →
      d.interfaces = [i] → i.MirroredBy c → c.path = path → Assembled path d
  | append {a b : Declared} : Assembled path a → Assembled path b → Assembled path (a ++ b)

variable {path : String}

theorem Assembled.empty : Assembled path {} :=
  .nothing rfl rfl

theorem Assembled.concat {ds : List Declared} (h : ∀ d ∈ ds, d.Assembled path) :
    (concat ds).Assembled path :=
  List.foldlRecOn ds Declared.append .empty fun _ hbefore d hd => hbefore.append (h d hd)

theorem Assembled.concat_map {ι : Type} {items : List ι} {f : ι → Declared}
    (h : ∀ item ∈ items, (f item).Assembled path) : (Declared.concat (items.map f)).Assembled path := by
  refine Assembled.concat fun d hd => ?_
  obtain ⟨item, hitem, rfl⟩ := List.mem_map.1 hd
  exact h item hitem

end Declared

namespace Outline

open Declared Syntax

/-! ## 3. One declaration -/

theorem Java.assembled_ownDeclared (path name : String) (node : Node) :
    (Java.ownDeclared path name node).Assembled path := by
  unfold Java.ownDeclared
  split
  · exact .ofInterface rfl rfl (InterfaceDecl.mirroredBy_asClass _) rfl
  · split
    · exact .ofClass rfl rfl rfl rfl
    · exact .ofClass rfl rfl rfl rfl

/-- The types in the body of a Java type come before it, in step with their interfaces. -/
theorem Java.assembled_declared (path : String) (node : Node) :
    (Java.declared path node).Assembled path := by
  induction node using Java.declared.induct with
  | case1 node htype hname =>
    unfold Java.declared
    rw [if_pos htype, hname]
    exact .empty
  | case2 node htype name hname ih =>
    unfold Java.declared
    rw [if_pos htype, hname]
    refine .append (Assembled.concat_map ?_) (Java.assembled_ownDeclared path name node)
    rintro ⟨member, hmember⟩ -
    exact ih member hmember
  | case3 node htype =>
    unfold Java.declared
    rw [if_neg htype]
    exact .empty

/-- A Python class is an interface as well if it is a protocol. -/
theorem Python.assembled_classDeclared (path : String) (node : Node) :
    (Python.classDeclared path node).Assembled path := by
  unfold Python.classDeclared
  split
  · exact .empty
  · dsimp only
    -- whether it is one decides the kind of the class and whether there is an interface
    generalize List.contains _ "Protocol" = isProtocol
    cases isProtocol with
    | true =>
      refine .ofInterface rfl rfl ?_ rfl
      exact ⟨rfl, rfl, rfl, rfl, toList_head?_append_tail _, rfl, rfl⟩
    | false => exact .ofClass rfl rfl rfl rfl

theorem Python.assembled_declared (path : String) (node : Node) :
    (Python.declared path node).Assembled path := by
  unfold Python.declared
  dsimp only
  split
  · exact Python.assembled_classDeclared path _
  · split
    · unfold Python.functionDeclared
      split
      · exact .empty
      · exact .nothing rfl rfl
    · exact .empty

/-- A class of a script file is never an interface. -/
theorem Script.assembled_classDecl {path : String} {node : Node} {defaultName : Option String}
    {c : ClassDecl} (h : Script.classDecl? path node defaultName = some c) {d : Declared}
    (hclasses : d.classes = [c]) (hinterfaces : d.interfaces = []) : d.Assembled path := by
  unfold Script.classDecl? at h
  split at h
  · cases h
  · cases h
    exact .ofClass hclasses hinterfaces rfl rfl

theorem Script.path_of_interfaceDecl? {path : String} {node : Node} {i : InterfaceDecl}
    (h : Script.interfaceDecl? path node = some i) : i.path = path := by
  unfold Script.interfaceDecl? at h
  obtain ⟨name, -, rfl⟩ := Option.map_eq_some_iff.1 h
  rfl

theorem Script.assembled_functionDeclared (path : String) (isExported : Bool) (node : Node) :
    (Script.functionDeclared isExported node).Assembled path := by
  unfold Script.functionDeclared
  split
  · exact .empty
  · exact .nothing rfl rfl

theorem Script.assembled_variableDeclared (path : String) (isExported : Bool) (node : Node) :
    (Script.variableDeclared isExported node).Assembled path := by
  unfold Script.variableDeclared
  split
  · exact .empty
  · split
    · exact .empty
    · dsimp only
      split
      · exact .nothing rfl rfl
      · exact .nothing rfl rfl

theorem Script.assembled_declared (path : String) (isExported : Bool) (node : Node) :
    (Script.declared path isExported node).Assembled path := by
  unfold Script.declared
  split
  · split
    · rename_i c hc
      exact Script.assembled_classDecl hc rfl rfl
    · exact .empty
  split
  · split
    · rename_i i hi
      exact .ofInterface rfl rfl i.mirroredBy_asClass (Script.path_of_interfaceDecl? hi)
    · exact .empty
  split
  · split
    · exact .ofClass rfl rfl rfl rfl
    · exact .empty
  split
  · split
    · exact .nothing rfl rfl
    · exact .empty
  split
  · exact Script.assembled_functionDeclared path isExported node
  split
  · exact Assembled.concat_map fun declarator _ =>
      Script.assembled_variableDeclared path isExported declarator
  · exact .empty

theorem Script.assembled_exportStatement (path : String) (node : Node) :
    (Script.exportStatement path node).1.Assembled path := by
  unfold Script.exportStatement
  dsimp only
  split
  · exact Script.assembled_declared path true _
  · exact .empty
  · exact .empty
  -- a default value declares something only if it is a class
  · split
    · exact .empty
    · split
      · split
        · rename_i c hc
          exact Script.assembled_classDecl hc rfl rfl
        · exact .empty
      · exact .empty
  · exact .empty

theorem Script.assembled_statement (path : String) (node : Node) :
    (Script.statement path node).1.Assembled path := by
  unfold Script.statement
  split
  · exact Script.assembled_exportStatement path node
  · split
    · exact .empty
    · exact Script.assembled_declared path false node

/-! ## 4. Whole files -/

/-- A tree without faults has an outline. -/
theorem ofTree_of_sound {language : Language} {path : String} {root : Node}
    (h : root.firstFault? = none) :
    ofTree language path root = .ok (ofSoundTree language path root) := by
  rw [ofTree, h]

/-- **The classes and interfaces of every outline** are what the declarations of the file add. -/
theorem exists_assembled (language : Language) (path : String) (root : Node) :
    ∃ d : Declared, d.Assembled path ∧ (ofSoundTree language path root).classes = d.classes ∧
      (ofSoundTree language path root).interfaces = d.interfaces := by
  have hscript : (Declared.concat ((root.named.map (Script.statement path)).map (·.1))).Assembled
      path := by
    rw [List.map_map]
    exact Assembled.concat_map fun node _ => Script.assembled_statement path node
  cases language with
  | java => exact ⟨_, Assembled.concat_map fun node _ => Java.assembled_declared path node, rfl, rfl⟩
  | python =>
    exact ⟨_, Assembled.concat_map fun node _ => Python.assembled_declared path node, rfl, rfl⟩
  | typescript | javascript | go => exact ⟨_, hscript, rfl, rfl⟩

end Outline

end CodeAtlas
