import CodeAtlas.Proofs.Outline.TopLevel
import CodeAtlas.Proofs.Parser.Standard
import CodeAtlas.Proofs.Syntax.Capture
import CodeAtlas.Proofs.Traversal.NextHop

/-!
# A file's own types come first

A class name is looked up in other files only if the file does not declare it. What the file counts
as declared are its classes and interfaces, and every class, interface, enumeration or record at its
top is among them; so a file that leads to another which no import of it means refers to a name that
the other declares and that it does not declare at its top itself
(`exists_foreign_name_of_mem_next`).

The index knows more declarations than the outline does. A type alias is one for the index but no
class of the file, so its name is looked up elsewhere all the same
(`leads_despite_alias`).
-/

namespace CodeAtlas

open Syntax

/-! ## 1. The types at the top of a file -/

/-- **A file declares a type at its top**: it can be read, and its tree holds a declaration of a
class, an interface, an enumeration or a record of the name. -/
def Project.DeclaresAtTop (project : Project) (path name : String) : Prop :=
  name ≠ "" ∧ ∃ language text declaration,
    Language.ofFile path = .ok (some language) ∧ project.view.read path = .ok text ∧
    Outline.DeclaresAtTop language (project.grammar path text) declaration ∧
    declaration.fieldText "name" = name

namespace Traversal

variable {project : Project} {path name target : String} {file : LoadedFile}

/-- A file that is loaded declares the types at its top. -/
theorem mem_declaredNames_of_load (hload : project.load path = .ok file)
    (h : project.DeclaresAtTop path name) : name ∈ file.outline.declaredNames := by
  obtain ⟨hname, language, text, declaration, hlanguage, hread, hdeclares, rfl⟩ := h
  obtain ⟨text', outline, hread', houtline, rfl⟩ := exists_of_load hload
  cases hread.symm.trans hread'
  rw [LoadedFile.ofOutline, Outline.eq_ofSoundTree hlanguage houtline]
  exact Outline.mem_declaredNames_of_declaresAtTop hdeclares hname

/-! ## 2. Steps -/

/-- **A name of its own leads a file nowhere.** Where a file leads to one that none of its imports
means, it refers to a name that the other file declares and for which that file was chosen, and the
name is of no class, interface, enumeration or record at its own top. -/
theorem exists_foreign_name_of_mem_next (session : Session) (hlaw : project.view.Lawful)
    (h : ∀ index ∈ session.supplied, index.Filled project.view)
    (hload : project.load path = .ok file) (htarget : target ∈ (session.graph project).next path)
    (himports : ∀ i ∈ file.outline.imports,
      target ∉ ImportGraph.targetsOf project.view path i) :
    ∃ name ∈ ImportGraph.referencedNames file,
      (session.graph project).lookup.choose? path name file.outline.imports = some target ∧
      project.view.Declares target name ∧ ¬ project.DeclaresAtTop path name := by
  have hnext : (session.graph project).next path = (session.graph project).nextOf path file :=
    ImportGraph.next_of_ok hload
  rw [hnext] at htarget
  rcases ImportGraph.mem_nextOf.1 htarget with ⟨-, i, hi, hmeans⟩ | ⟨name, hopen, hchosen⟩
  · exact absurd hmeans (himports i hi)
  · obtain ⟨hreferenced, hown, -⟩ := ImportGraph.mem_openNames.1 hopen
    have hdeclarer := (Lookup.mem_of_choose? hchosen).1
    refine ⟨name, hreferenced, hchosen, ?_, mt (mem_declaredNames_of_load hload) hown⟩
    exact ((Session.isFaithful_lookup session hlaw h).mem_declarers.1 hdeclarer).2

/-! ## 3. An alias of a name that another file declares -/

/-- The tree of `type User = string;` and `class A { u: User }`. -/
def aliasTree : Node :=
  let source := Source.ofString "type User = string;\nclass A \x7b u: User \x7d\n"
  let rule := source.rule
  let token := source.token
  rule 0 "program" none 0 40
    [rule 1 "type_alias_declaration" none 0 19
      [token 2 "type" 0 4, rule 3 "type_identifier" (some "name") 5 9 [], token 4 "=" 10 11,
        rule 5 "predefined_type" (some "value") 12 18 [token 6 "string" 12 18],
        token 7 ";" 18 19],
    rule 8 "class_declaration" none 20 39
      [token 9 "class" 20 25, rule 10 "type_identifier" (some "name") 26 27 [],
        rule 11 "class_body" (some "body") 28 39
          [token 12 "\x7b" 28 29,
            rule 13 "public_field_definition" none 30 37
              [rule 14 "property_identifier" (some "name") 30 31 [],
                rule 15 "type_annotation" (some "type") 31 37
                  [token 16 ":" 31 32, rule 17 "type_identifier" none 33 37 []]],
            token 18 "\x7d" 38 39]]]

/-- The tree of `class User {}`. -/
def userTree : Node :=
  let source := Source.ofString "class User \x7b\x7d\n"
  let rule := source.rule
  let token := source.token
  rule 0 "program" none 0 14
    [rule 1 "class_declaration" none 0 13
      [token 2 "class" 0 5, rule 3 "type_identifier" (some "name") 6 10 [],
        rule 4 "class_body" (some "body") 11 13 [token 5 "\x7b" 11 12, token 6 "\x7d" 12 13]]]

/-- A file that declares an alias and refers to it, and another that declares a class of that
name. -/
def aliasedName : Project :=
  { view := (MemoryStore.ofFiles "/"
      [("/a.ts", "type User = string;\nclass A \x7b u: User \x7d\n"),
        ("/b.ts", "class User \x7b\x7d\n")]).view
    grammar := fun path _ => if path == "/a.ts" then aliasTree else userTree }

theorem exists_load_aliasedName :
    ∃ file, aliasedName.load "/a.ts" = .ok file ∧ file.outline.imports = [] ∧
      ImportGraph.referencedNames file = ["User"] := by
  have hparts : (aliasedName.load "/a.ts").toOption.any (fun file =>
      file.outline.imports.isEmpty && ImportGraph.referencedNames file == ["User"]) = true := by
    decide +kernel
  cases hload : aliasedName.load "/a.ts" with
  | error e =>
    rw [hload] at hparts
    cases hparts
  | ok file =>
    rw [hload, Except.toOption, Option.any_some, Bool.and_eq_true] at hparts
    exact ⟨file, rfl, List.isEmpty_iff.1 hparts.1, eq_of_beq hparts.2⟩

theorem next_aliasedName : (Session.graph {} aliasedName).next "/a.ts" = ["/b.ts"] := by
  decide +kernel

theorem exists_foreign_name_aliasedName :
    aliasedName.view.Lawful ∧ ∃ file, aliasedName.load "/a.ts" = .ok file ∧
      "/b.ts" ∈ (Session.graph {} aliasedName).next "/a.ts" ∧
      (∀ i ∈ file.outline.imports,
        "/b.ts" ∉ ImportGraph.targetsOf aliasedName.view "/a.ts" i) ∧
      ∃ name ∈ ImportGraph.referencedNames file,
        (Session.graph {} aliasedName).lookup.choose? "/a.ts" name file.outline.imports
          = some "/b.ts" ∧
        aliasedName.view.Declares "/b.ts" name ∧ ¬ aliasedName.DeclaresAtTop "/a.ts" name := by
  have hlaw : aliasedName.view.Lawful := (MemoryStore.isKeyed_ofFiles _ _).lawful_view
  obtain ⟨file, hload, hnone, -⟩ := exists_load_aliasedName
  have htarget : "/b.ts" ∈ (Session.graph {} aliasedName).next "/a.ts" :=
    next_aliasedName ▸ List.mem_singleton_self _
  have himports : ∀ i ∈ file.outline.imports,
      "/b.ts" ∉ ImportGraph.targetsOf aliasedName.view "/a.ts" i :=
    fun i hi => absurd (hnone ▸ hi) List.not_mem_nil
  exact ⟨hlaw, file, hload, htarget, himports,
    exists_foreign_name_of_mem_next {} hlaw nofun hload htarget himports⟩

/-- **An alias does not count.** The file imports nothing, and by the index it declares the only
name that it refers to; it leads to the other file all the same. -/
theorem leads_despite_alias :
    ∃ file, aliasedName.load "/a.ts" = .ok file ∧ file.outline.imports = [] ∧
      ImportGraph.referencedNames file = ["User"] ∧
      aliasedName.view.Declares "/a.ts" "User" ∧ aliasedName.view.Declares "/b.ts" "User" ∧
      (Session.graph {} aliasedName).next "/a.ts" = ["/b.ts"] := by
  obtain ⟨file, hload, hnone, hnames⟩ := exists_load_aliasedName
  exact ⟨file, hload, hnone, hnames, ⟨some .typescript, _, rfl, rfl, by decide +kernel⟩,
    ⟨some .typescript, _, rfl, rfl, by decide +kernel⟩, next_aliasedName⟩

end Traversal

end CodeAtlas
