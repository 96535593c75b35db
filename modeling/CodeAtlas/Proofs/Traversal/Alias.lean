import CodeAtlas.Proofs.Outline.Mirror
import CodeAtlas.Proofs.Renaming.Import
import CodeAtlas.Proofs.Renaming.Python
import CodeAtlas.Proofs.Renaming.Script

/-!
# Names imported under an alias

A file may import a name under an alias and use the alias for the class. What it leads to is what it
would lead to if it had imported the name as it is and used that: the import means the same, and all
that the file refers to is the same but for the name (`next_of_givesUpAlias`). This holds as long as no
other file declares the alias. The imports of a file do not know it, so that a class of that name
anywhere is taken for the one that was imported (`leads_despite_import`).
-/

namespace CodeAtlas

open Syntax

/-! ## 1. A file with another text -/

/-- The view in which a file has another text. -/
def FileView.withText (view : FileView) (path text : String) : FileView :=
  { view with read := fun p => if p == path then .ok text else view.read p }

/-- The project in which a file has another text. -/
def Project.withText (project : Project) (path text : String) : Project :=
  { project with view := project.view.withText path text }

namespace FileView

variable {view : FileView} {path text p : String}

theorem Lawful.withText (h : view.Lawful) (path text : String) : (view.withText path text).Lawful :=
  h.withRead _

theorem read_withText_self : (view.withText path text).read path = .ok text :=
  if_pos (beq_self_eq_true path)

theorem read_withText_of_ne (h : p ≠ path) : (view.withText path text).read p = view.read p :=
  if_neg (mt beq_iff_eq.1 h)

/-- Other files declare what they declared. -/
theorem declares_withText_of_ne (h : p ≠ path) {name : String} :
    (view.withText path text).Declares p name ↔ view.Declares p name := by
  unfold Declares
  rw [read_withText_of_ne h]

end FileView

namespace Traversal

open ImportGraph

variable {project : Project} {path text text' : String}

theorem declarersBeside_withText (project : Project) (path text name : String) :
    declarersBeside (project.withText path text) path name = declarersBeside project path name := by
  have hscope : Session.scope (project.withText path text) = Session.scope project := rfl
  rw [declarersBeside, hscope, declarersBeside]
  refine List.filter_congr fun c _ => decide_eq_decide.2 (and_congr_right fun hne => ?_)
  exact FileView.declares_withText_of_ne hne

end Traversal

/-! ## 2. The same file under a new name -/

namespace Renaming

variable {r : Renaming} {language : Language} {path : String} {root root' : Node}

/-- **A file is written anew under a renaming**: the new tree is what the old one was, but for the
name outside of import statements, and for the alias in them. -/
structure Rewrites (r : Renaming) (language : Language) (root root' : Node) : Prop where
  kind : root.kind ∉ importKinds
  tree : r.tree true root' = r.tree true root
  imports : r.ImportsSame language root root'

/-- What the reading of a file in a language asks of a renaming. -/
def IsReadAlike (r : Renaming) (language : Language) (root : Node) : Prop :=
  match language with
  | .python => r.SparesPython ∧ root.everywhere r.isClearOfBound = true
  | _ => r.Spares Outline.Script.knownWords

/-- **The names of a renaming mean nothing else in a file**: they are no words that the readers know,
and the file declares and binds neither. -/
structure IsFree (r : Renaming) (language : Language) (path : String) (root : Node) : Prop where
  words : r.Spares Annotation.knownWords
  readers : r.IsReadAlike language root
  declared : ∀ name ∈ (Outline.ofSoundTree language path root).declaredNames, r.IsClearOf name

/-- The classes of what is left of a tree. -/
theorem IsReadAlike.classes (h : r.IsReadAlike language root) (hjava : language ≠ .java)
    (hkind : root.kind ∉ importKinds) (path : String) :
    (Outline.ofSoundTree language path (r.tree true root)).classes.map (·.usage r.string)
      = (Outline.ofSoundTree language path root).classes.map (·.usage r.string) := by
  cases language with
  | java => exact absurd rfl hjava
  | python => exact classes_python h.1 path hkind h.2
  | typescript => exact classes_script h .typescript path hkind
  | javascript => exact classes_script h .javascript path hkind
  | go => exact classes_script h .go path hkind

/-- **The classes of both files are used alike.** -/
theorem Rewrites.classes (h : r.Rewrites language root root') (hjava : language ≠ .java)
    (hread : r.IsReadAlike language root) (hread' : r.IsReadAlike language root') (path : String) :
    (Outline.ofSoundTree language path root').classes.map (·.usage r.string)
      = (Outline.ofSoundTree language path root).classes.map (·.usage r.string) := by
  have hkind : root'.kind ∉ importKinds := by
    rw [← r.kind_tree (o := true) root', h.tree, kind_tree]
    exact h.kind
  rw [← hread'.classes hjava hkind path, h.tree, hread.classes hjava h.kind path]

/-- **Both files declare the same names.** -/
theorem Rewrites.mem_declaredNames_iff (h : r.Rewrites language root root')
    (hjava : language ≠ .java) (hfree : r.IsFree language path root)
    (hread' : r.IsReadAlike language root') (name : String) :
    name ∈ (Outline.ofSoundTree language path root').declaredNames ↔
      name ∈ (Outline.ofSoundTree language path root).declaredNames := by
  have hmem : ∀ (root : Node) (name : String),
      name ∈ (Outline.ofSoundTree language path root).declaredNames ↔
        ∃ c ∈ (Outline.ofSoundTree language path root).classes, c.name = name := fun root =>
    Outline.mem_declaredNames_of_forall₂ (Outline.forall₂_ofSoundTree language path root)
  have hclear : ∀ c ∈ (Outline.ofSoundTree language path root).classes, r.IsClearOf c.name :=
    fun c hc => hfree.declared c.name ((hmem root c.name).2 ⟨c, hc, rfl⟩)
  have hclasses := h.classes hjava hfree.readers hread' path
  -- a class with a usage from the other list has the name of that class
  rw [hmem, hmem]
  constructor
  · rintro ⟨c', hc', rfl⟩
    have husage := List.mem_map_of_mem (f := fun c : ClassDecl => c.usage r.string) hc'
    rw [hclasses] at husage
    obtain ⟨c, hc, hsame⟩ := List.mem_map.1 husage
    exact ⟨c, hc, (r.eq_of_isClearOf (congrArg ClassDecl.name hsame).symm (hclear c hc)).symm⟩
  · rintro ⟨c, hc, rfl⟩
    have husage := List.mem_map_of_mem (f := fun c : ClassDecl => c.usage r.string) hc
    rw [← hclasses] at husage
    obtain ⟨c', hc', hsame⟩ := List.mem_map.1 husage
    exact ⟨c', hc', r.eq_of_isClearOf (congrArg ClassDecl.name hsame) (hclear c hc)⟩

end Renaming

/-! ## 3. Steps -/

namespace Traversal

open ImportGraph Renaming

variable {project : Project} {path text text' source target : String} {language : Language}
  {session later : Session} {r : Renaming} {file file' : LoadedFile}

/-- An import accounts for a name where its module means a file. -/
theorem mem_coveredNames {view : FileView} {imports : List Import} {i : Import} {name : String}
    (hi : i ∈ imports) (hmeans : Means view path i.source target) (hname : name ∈ i.specifiers) :
    name ∈ coveredNames view path imports := by
  have hsource : ((view.resolveImport path i.source).map view.canonical).toList ≠ [] := by
    rw [show (view.resolveImport path i.source).map view.canonical = some target from hmeans]
    exact List.cons_ne_nil _ _
  have hfallback : ∀ {fallback modules : List String}, fallback ≠ [] →
      (if modules.isEmpty then fallback else modules) ≠ [] := by
    intro fallback modules hne
    split
    · exact hne
    · rename_i hmodules
      exact mt List.isEmpty_iff.2 hmodules
  have htargets : targetsOf view path i ≠ [] := hfallback hsource
  refine List.mem_flatMap.2 ⟨i, List.mem_filter.2 ⟨hi, ?_⟩, List.mem_append_left _ hname⟩
  rw [Bool.not_eq_true', ← Bool.not_eq_true, List.isEmpty_iff]
  exact htargets

/-- Names are looked up alike, whatever a file itself says. -/
theorem choose?_withText (hlaw : project.view.Lawful)
    (hsession : ∀ index ∈ session.supplied, index.Filled project.view)
    (hlater : ∀ index ∈ later.supplied, index.Filled (project.withText path text').view)
    (name : String) (imports : List Import) :
    (later.graph (project.withText path text')).lookup.choose? path name imports
      = (session.graph project).lookup.choose? path name imports := by
  have hcandidates : ((later.graph (project.withText path text')).lookup.declarers name).filter
        (· != path)
      = ((session.graph project).lookup.declarers name).filter (· != path) := by
    rw [(Session.isFaithful_lookup later (hlaw.withText path text') hlater).candidates_eq
        (later.scope_lookup_graph _), declarersBeside_withText,
      (Session.isFaithful_lookup session hlaw hsession).candidates_eq (session.scope_lookup_graph _)]
  rw [Lookup.choose?, hcandidates, Lookup.choose?]

/-- **An alias can be given up.** A file that imports a name from a module under an alias leads to
the same files as the one that imports and uses the name itself, if no other file declares the
alias. -/
theorem next_of_givesUpAlias (hlaw : project.view.Lawful)
    (hsession : ∀ index ∈ session.supplied, index.Filled project.view)
    (hlater : ∀ index ∈ later.supplied, index.Filled (project.withText path text').view)
    (hlanguage : Language.ofFile path = .ok (some language)) (hjava : language ≠ .java)
    (hread : project.view.read path = .ok text) (hload : project.load path = .ok file)
    (hload' : (project.withText path text').load path = .ok file')
    (himport : Outline.ImportsAs language (project.grammar path text) source
      (String.ofList r.new) (String.ofList r.old))
    (hmeans : Means project.view path source target)
    (hrewrites : r.Rewrites language (project.grammar path text) (project.grammar path text'))
    (hfree : r.IsFree language path (project.grammar path text))
    (hread' : r.IsReadAlike language (project.grammar path text'))
    (hold : ∀ p ∈ Session.scope project, p ≠ path →
      ¬ project.view.Declares p (String.ofList r.old)) :
    (later.graph (project.withText path text')).next path = (session.graph project).next path := by
  obtain ⟨text₁, outline, hread₁, houtline, rfl⟩ := exists_of_load hload
  cases hread.symm.trans hread₁
  obtain ⟨text₂, outline', hread₂, houtline', rfl⟩ := exists_of_load hload'
  cases (FileView.read_withText_self).symm.trans hread₂
  have houtline := Outline.eq_ofSoundTree hlanguage houtline
  have houtline' := Outline.eq_ofSoundTree hlanguage houtline'
  have hnew : String.ofList r.new ≠ "" := by
    rw [Ne, ← String.toList_eq_nil_iff, String.toList_ofList]
    exact r.isName_new.1
  obtain ⟨i, hi, hsource, hspecifier⟩ := himport.exists_import hjava hnew path
  have hnext : (session.graph project).next path
      = (session.graph project).nextOf path (.ofOutline outline) := next_of_ok hload
  have hnext' : (later.graph (project.withText path text')).next path
      = (later.graph (project.withText path text')).nextOf path (.ofOutline outline') :=
    next_of_ok hload'
  rw [hnext, hnext']
  refine nextOf_eq_of_usage (r := r) (fun i => rfl) (choose?_withText hlaw hsession hlater) ?_ ?_ ?_
    hfree.words ?_
  · rw [houtline, houtline']
    exact hrewrites.imports.meaning hjava path
  · rw [houtline, houtline']
    exact hrewrites.mem_declaredNames_iff hjava hfree hread'
  · rw [houtline, houtline']
    exact hrewrites.classes hjava hfree.readers hread' path
  · refine passes_leadOf (Session.isFaithful_lookup session hlaw hsession) ?_ ?_
    · rw [Session.scope_lookup_graph]
      exact hold
    · rw [houtline]
      exact mem_coveredNames hi (hsource ▸ hmeans) hspecifier

/-! ## 4. An alias that another file declares -/

/-- A file that imports a class under an alias. -/
def givenText : String := "import \x7b User as U \x7d from './b';\nclass A \x7b u: U \x7d\n"

/-- The same file with the name of the class. -/
def plainText : String := "import \x7b User \x7d from './b';\nclass A \x7b u: User \x7d\n"

/-- The tree of `import { … } from './b';`, given what stands for the name and where it ends. -/
def namedImport (source : Source) (stop : Nat) (names : List Node) : Node :=
  let rule := source.rule
  let token := source.token
  rule 1 "import_statement" none 0 (stop + 14)
    [token 2 "import" 0 6,
      rule 3 "import_clause" none 7 (stop + 2)
        [rule 4 "named_imports" none 7 (stop + 2)
          [token 5 "\x7b" 7 8, rule 6 "import_specifier" none 9 stop names,
            token 10 "\x7d" (stop + 1) (stop + 2)]],
      token 11 "from" (stop + 3) (stop + 7),
      rule 12 "string" (some "source") (stop + 8) (stop + 13)
        [token 13 "'" (stop + 8) (stop + 9),
          rule 14 "string_fragment" none (stop + 9) (stop + 12) [],
          token 15 "'" (stop + 12) (stop + 13)],
      token 16 ";" (stop + 13) (stop + 14)]

/-- The tree of `class A { u: … }`, given where it starts and the length of the type. -/
def fieldClass (source : Source) (start length : Nat) : Node :=
  let rule := source.rule
  let token := source.token
  rule 17 "class_declaration" none start (start + length + 15)
    [token 18 "class" start (start + 5),
      rule 19 "type_identifier" (some "name") (start + 6) (start + 7) [],
      rule 20 "class_body" (some "body") (start + 8) (start + length + 15)
        [token 21 "\x7b" (start + 8) (start + 9),
          rule 22 "public_field_definition" none (start + 10) (start + length + 13)
            [rule 23 "property_identifier" (some "name") (start + 10) (start + 11) [],
              rule 24 "type_annotation" (some "type") (start + 11) (start + length + 13)
                [token 25 ":" (start + 11) (start + 12),
                  rule 26 "type_identifier" none (start + 13) (start + length + 13) []]],
          token 27 "\x7d" (start + length + 14) (start + length + 15)]]

/-- The tree of `givenText`. -/
def givenTree : Node :=
  let source := Source.ofString givenText
  source.rule 0 "program" none 0 50
    [namedImport source 18
      [source.rule 7 "identifier" (some "name") 9 13 [], source.token 8 "as" 14 16,
        source.rule 9 "identifier" (some "alias") 17 18 []],
      fieldClass source 33 1]

/-- The tree of `plainText`. -/
def plainTree : Node :=
  let source := Source.ofString plainText
  source.rule 0 "program" none 0 48
    [namedImport source 13 [source.rule 7 "identifier" (some "name") 9 13 []],
      fieldClass source 28 4]

/-- The tree of `class U {}`. -/
def otherTree : Node :=
  let source := Source.ofString "class U \x7b\x7d\n"
  let rule := source.rule
  let token := source.token
  rule 0 "program" none 0 11
    [rule 1 "class_declaration" none 0 10
      [token 2 "class" 0 5, rule 3 "type_identifier" (some "name") 6 7 [],
        rule 4 "class_body" (some "body") 8 10 [token 5 "\x7b" 8 9, token 6 "\x7d" 9 10]]]

/-- `User` for `U`. -/
def userForU : Renaming :=
  { old := ['U'], new := ['U', 's', 'e', 'r'], isName_old := by decide, isName_new := by decide }

/-- The classes of both files are the same under the new name. -/
theorem tree_fieldClass : userForU.tree false (fieldClass (Source.ofString plainText) 28 4)
    = userForU.tree false (fieldClass (Source.ofString givenText) 33 1) := by
  simp only [fieldClass, Source.rule, Source.token, Source.node, Source.slice, tree, treesOf, label,
    Bool.false_and, Bool.or_self, Bool.false_eq_true, if_false, string_ofList, Node.node.injEq,
    Label.mk.injEq, List.cons.injEq, and_true, true_and]
  decide +kernel

/-- So are the files, but for the statements that bring the name in. -/
theorem tree_plainTree : userForU.tree true plainTree = userForU.tree true givenTree := by
  have hprogram : ∀ n ∈ [plainTree, givenTree],
      isDropped true n = false ∧ isOutside true n = true := by decide
  have himport : ∀ n ∈ [plainTree, givenTree], ∀ c ∈ n.children.head?, isDropped true c = true := by
    decide
  have hclass : ∀ {source : Source} {start length : Nat},
      userForU.tree true (fieldClass source start length)
        = userForU.tree false (fieldClass source start length) := by
    intro source start length
    have hkind : (fieldClass source start length).kind = "class_declaration" := rfl
    exact tree_eq_inside_of_kind _ (by rw [hkind]; decide) (by rw [hkind]; decide)
  have hplain := hprogram plainTree List.mem_cons_self
  have hgiven := hprogram givenTree (List.mem_cons_of_mem _ List.mem_cons_self)
  rw [userForU.tree_of_isOutside hplain.1 hplain.2,
    userForU.tree_of_isOutside hgiven.1 hgiven.2]
  refine congrArg₂ Node.node (userForU.label_congr "" (by decide))
    (congrArg₂ List.cons ?_ (congrArg (· :: []) ?_))
  · rw [userForU.tree_of_isDropped (himport plainTree List.mem_cons_self _ rfl),
      userForU.tree_of_isDropped (himport givenTree (List.mem_cons_of_mem _ List.mem_cons_self) _ rfl)]
    exact congrArg (fun l => Node.node l []) (userForU.label_congr "" (by decide))
  · rw [hclass, tree_fieldClass, hclass]

/-- The first file has one import, which takes `User` as `U`. -/
theorem captures_givenTree : ∃ c, givenTree.captures Outline.Script.importQuery = [c] ∧
    c.tag = .statement ∧
      Outline.Script.importText? c.node = some ⟨"./b", [.names [("User", "U")]]⟩ :=
  ⟨_, (Node.captures_eq_picked (by decide +kernel)).trans rfl, rfl, by decide +kernel⟩

/-- So has the second file, but without the alias. -/
theorem captures_plainTree : ∃ c, plainTree.captures Outline.Script.importQuery = [c] ∧
    c.tag = .statement ∧
      Outline.Script.importText? c.node = some ⟨"./b", [.names [("User", "")]]⟩ :=
  ⟨_, (Node.captures_eq_picked (by decide +kernel)).trans rfl, rfl, by decide +kernel⟩

/-- A project with the first file, the file that it imports the class from, and some others. -/
def aliasedImport (others : List (String × String)) : Project :=
  { view := (MemoryStore.ofFiles "/"
      ([("/a.ts", givenText), ("/b.ts", "class User \x7b\x7d\n")] ++ others)).view
    grammar := fun path text =>
      if path == "/a.ts" then (if text == givenText then givenTree else plainTree)
      else if path == "/b.ts" then userTree else otherTree }

theorem importsAs_givenTree : Outline.ImportsAs .typescript givenTree "./b" "User" "U" := by
  obtain ⟨c, hcaptures, htag, htext⟩ := captures_givenTree
  refine ⟨{ source := "./b", parts := [.names [("User", "U")]] }, ?_, rfl, [("User", "U")],
    List.mem_singleton_self _, List.mem_singleton_self _⟩
  change _ ∈ ((givenTree.captures Outline.Script.importQuery).filter (·.tag == .statement)).filterMap
    fun c => Outline.Script.importText? c.node
  rw [hcaptures]
  refine List.mem_filterMap.2 ⟨c, List.mem_filter.2 ⟨List.mem_singleton_self c, ?_⟩, htext⟩
  exact beq_iff_eq.2 htag

theorem importsSame_plainTree : userForU.ImportsSame .typescript givenTree plainTree := by
  obtain ⟨c, hplain, htag, htext⟩ := captures_plainTree
  obtain ⟨d, hgiven, htag', htext'⟩ := captures_givenTree
  have hsame : userForU.SaysSameScript c d :=
    { tag := htag.trans htag'.symm
      statement := fun _ => by rw [htext, htext']; decide
      other := fun hother => absurd htag' hother }
  change List.Forall₂ _ _ _
  rw [hplain, hgiven]
  exact .cons hsame .nil

/-- The alias is given up from the one file to the other. -/
theorem rewrites_plainTree : userForU.Rewrites .typescript givenTree plainTree :=
  { kind := show "program" ∉ importKinds by decide
    tree := tree_plainTree
    imports := importsSame_plainTree }

theorem isFree_givenTree : userForU.IsFree .typescript "/a.ts" givenTree :=
  { words := by decide +kernel
    readers := show userForU.Spares Outline.Script.knownWords by decide +kernel
    declared := by decide +kernel }

/-- Where no other file declares the alias, it makes no difference. -/
theorem next_aliasedImport :
    Language.ofFile "/a.ts" = .ok (some .typescript) ∧
    Outline.ImportsAs .typescript givenTree "./b" "User" "U" ∧
    Means (aliasedImport []).view "/a.ts" "./b" "/b.ts" ∧
    userForU.Rewrites .typescript givenTree plainTree ∧
    userForU.IsFree .typescript "/a.ts" givenTree ∧
    (∀ p ∈ Session.scope (aliasedImport []), p ≠ "/a.ts" →
      ¬ (aliasedImport []).view.Declares p "U") ∧
    (Session.graph {} ((aliasedImport []).withText "/a.ts" plainText)).next "/a.ts"
      = (Session.graph {} (aliasedImport [])).next "/a.ts" := by
  have hlaw : (aliasedImport []).view.Lawful := (MemoryStore.isKeyed_ofFiles _ _).lawful_view
  have hmeans : Means (aliasedImport []).view "/a.ts" "./b" "/b.ts" := by decide +kernel
  have hold : ∀ p ∈ Session.scope (aliasedImport []), p ≠ "/a.ts" →
      ¬ (aliasedImport []).view.Declares p "U" := by decide +kernel
  obtain ⟨file, hload⟩ : ∃ file, (aliasedImport []).load "/a.ts" = .ok file :=
    Outcome.exists_of_isSome_toOption (by decide +kernel)
  obtain ⟨file', hload'⟩ : ∃ file, ((aliasedImport []).withText "/a.ts" plainText).load "/a.ts"
      = .ok file :=
    Outcome.exists_of_isSome_toOption (by decide +kernel)
  have hlanguage : Language.ofFile "/a.ts" = .ok (some .typescript) := rfl
  have hread : (aliasedImport []).view.read "/a.ts" = .ok givenText := rfl
  have hreaders : userForU.IsReadAlike .typescript plainTree := isFree_givenTree.readers
  exact ⟨hlanguage, importsAs_givenTree, hmeans, rewrites_plainTree, isFree_givenTree, hold,
    next_of_givesUpAlias (r := userForU) hlaw nofun nofun hlanguage (by decide) hread hload hload'
      importsAs_givenTree hmeans rewrites_plainTree isFree_givenTree hreaders hold⟩

/-- **The import of an alias does not account for it**: the file imports `User` as `U`, and another file
declares a class `U`. The file leads there, and it would not with `User` in place of `U`. -/
theorem leads_despite_import :
    Outline.ImportsAs .typescript givenTree "./b" "User" "U" ∧
    userForU.Rewrites .typescript givenTree plainTree ∧
    userForU.IsFree .typescript "/a.ts" givenTree ∧
    (aliasedImport [("/c.ts", "class U \x7b\x7d\n")]).view.Declares "/c.ts" "U" ∧
    (Session.graph {} (aliasedImport [("/c.ts", "class U \x7b\x7d\n")])).next "/a.ts"
      = ["/b.ts", "/c.ts"] ∧
    (Session.graph {} ((aliasedImport [("/c.ts", "class U \x7b\x7d\n")]).withText "/a.ts"
      plainText)).next "/a.ts" = ["/b.ts"] :=
  ⟨importsAs_givenTree, rewrites_plainTree, isFree_givenTree, by decide +kernel, by decide +kernel,
    by decide +kernel⟩

end Traversal

end CodeAtlas
