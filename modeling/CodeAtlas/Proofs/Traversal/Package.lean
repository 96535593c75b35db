import CodeAtlas.Proofs.Traversal.OwnName

/-!
# Names imported from a package

A statement may import names from a package that is written as dots alone. Each name may be a module
of the package or something that its `__init__.py` defines. What such an import means is said by
`ImportGraph.mem_targetsOf_package`: the modules among its names, and the package only if none of them
is a module. So every name that is a module leads to its file, whatever the other names are, and the
package is reached where no name is a module (`next_of_importsFrom`). One module is enough to hide the
package from the names beside it (`hides_package`).
-/

namespace CodeAtlas

open Syntax

/-! ## 1. Imported names -/

namespace Import

variable {i : Import} {name : String}

theorem mem_specifiers_addSpecifier {added : String} :
    name ∈ (i.addSpecifier added).specifiers ↔ name ∈ i.specifiers ∨ name = added ∧ added ≠ "" := by
  unfold addSpecifier
  split
  · rename_i hkept
    rw [Bool.or_eq_true, String.isEmpty_iff, List.contains_iff_mem] at hkept
    refine ⟨Or.inl, ?_⟩
    rintro (hmem | ⟨rfl, hne⟩)
    · exact hmem
    · exact hkept.resolve_left hne
  · rename_i hnew
    have hne : added ≠ "" := by
      rintro rfl
      exact hnew rfl
    rw [List.mem_append, List.mem_singleton, and_iff_left hne]

/-- **Imported names are added to those there**, except empty ones. -/
theorem mem_specifiers_addSpecifiers {names : List String} :
    name ∈ (i.addSpecifiers names).specifiers ↔ name ∈ i.specifiers ∨ name ∈ names ∧ name ≠ "" := by
  unfold addSpecifiers
  induction names generalizing i with
  | nil => simp
  | cons added names ih =>
    rw [List.foldl_cons, ih, mem_specifiers_addSpecifier, List.mem_cons]
    grind

/-- Nothing else of the import changes. -/
theorem source_addSpecifiers (i : Import) (names : List String) :
    (i.addSpecifiers names).source = i.source := by
  unfold addSpecifiers
  refine List.foldlRecOn (motive := fun j : Import => j.source = i.source) names _ rfl
    fun j hj added _ => ?_
  unfold addSpecifier
  split
  · exact hj
  · exact hj

end Import

namespace Outline.Python

/-- The names that a statement imports, as their module has them. -/
def importedNames (statement : Node) : List String :=
  (statement.fields "name").map fun nameNode =>
    if nameNode.kind == "aliased_import" then nameNode.fieldText "name" else nameNode.text

theorem mem_specifiers_namesImport {statement : Node} {name : String} :
    name ∈ (namesImport statement).specifiers ↔ name ∈ importedNames statement ∧ name ≠ "" := by
  refine Import.mem_specifiers_addSpecifiers.trans ?_
  rw [or_iff_right List.not_mem_nil]
  rfl

theorem source_namesImport (statement : Node) :
    (namesImport statement).source = statement.fieldText "module_name" :=
  Import.source_addSpecifiers _ _

/-- **A tree imports names from a package**: one of its import statements has the names and, in place
of a module, some dots and nothing else. -/
structure ImportsFrom (root : Node) (dots : String) (names : List String) : Prop where
  ne_empty : dots ≠ ""
  only_dots : ∀ c ∈ dots.toList, c = '.'
  statement : ∃ capture ∈ root.captures importQuery, capture.tag = .names ∧
    capture.node.fieldText "module_name" = dots ∧ importedNames capture.node = names

/-- The outline has that import. -/
theorem ImportsFrom.exists_import {root : Node} {dots : String} {names : List String}
    (h : ImportsFrom root dots names) (path : String) :
    ∃ i ∈ (outline path root).imports, i.source = dots ∧
      ∀ name, name ∈ i.specifiers ↔ name ∈ names ∧ name ≠ "" := by
  obtain ⟨capture, hcapture, htag, hdots, hnames⟩ := h.statement
  refine ⟨namesImport capture.node, List.mem_flatMap.2 ⟨capture, hcapture, ?_⟩, ?_, fun name => ?_⟩
  · rw [importsOf, htag]
    exact List.mem_singleton_self _
  · rw [source_namesImport, hdots]
  · rw [mem_specifiers_namesImport, hnames]

end Outline.Python

namespace Traversal

/-! ## 2. What an import from a package means -/

namespace ImportGraph

variable {view : FileView} {path target : String} {i : Import}

/-- **A specifier in a file means another file.** -/
def Means (view : FileView) (path specifier target : String) : Prop :=
  (view.resolveImport path specifier).map view.canonical = some target

instance (view : FileView) (path specifier target : String) :
    Decidable (Means view path specifier target) :=
  inferInstanceAs (Decidable (_ = _))

theorem exists_means_iff {specifier : String} :
    (∃ target, Means view path specifier target) ↔ view.resolveImport path specifier ≠ none := by
  rw [Option.ne_none_iff_exists']
  simp [Means]

/-- **An import from a package means the modules among its names, or else the package.** -/
theorem mem_targetsOf_package (hne : i.source ≠ "") (hdots : ∀ c ∈ i.source.toList, c = '.') :
    target ∈ targetsOf view path i ↔
      (∃ name ∈ i.specifiers, Means view path (i.source ++ name) target) ∨
      (∀ name ∈ i.specifiers, view.resolveImport path (i.source ++ name) = none) ∧
        Means view path i.source target := by
  have hpackage : (!i.source.isEmpty && i.source.toList.all (· == '.')) = true := by
    rw [Bool.and_eq_true, List.all_eq_true]
    exact ⟨by simpa using hne, fun c hc => beq_iff_eq.2 (hdots c hc)⟩
  unfold targetsOf
  dsimp only
  rw [if_pos hpackage]
  split
  · rename_i hnone
    have hmodules : ∀ name ∈ i.specifiers, view.resolveImport path (i.source ++ name) = none := by
      simpa using hnone
    rw [Option.mem_toList]
    refine ⟨fun h => Or.inr ⟨hmodules, h⟩, ?_⟩
    rintro (⟨name, hname, hmeans⟩ | ⟨-, hmeans⟩)
    · exact absurd (hmodules name hname) (exists_means_iff.1 ⟨target, hmeans⟩)
    · exact hmeans
  · rename_i hsome
    rw [List.mem_filterMap]
    refine ⟨Or.inl, ?_⟩
    rintro (h | ⟨hmodules, -⟩)
    · exact h
    · exact absurd (by simpa using hmodules) hsome

end ImportGraph

open ImportGraph

/-! ## 3. Steps -/

/-- **A file leads where the names that it imports from a package lead**: to the modules among them,
and to the package if no name is a module. The file itself does not count. -/
structure LeadsFromPackage (graph : ImportGraph) (path dots : String) (names : List String) :
    Prop where
  modules : ∀ name ∈ names, name ≠ "" → ∀ target,
    Means graph.project.view path (dots ++ name) target → target ≠ path → target ∈ graph.next path
  package : (∀ name ∈ names, name ≠ "" →
      graph.project.view.resolveImport path (dots ++ name) = none) →
    ∀ target, Means graph.project.view path dots target → target ≠ path → target ∈ graph.next path

variable {graph : ImportGraph} {path text dots : String} {names : List String} {file : LoadedFile}

/-- **Every statement of a file that imports names from a package leads there.** -/
theorem next_of_importsFrom (hlanguage : Language.ofFile path = .ok (some .python))
    (hread : graph.project.view.read path = .ok text)
    (hload : graph.project.load path = .ok file)
    (h : Outline.Python.ImportsFrom (graph.project.grammar path text) dots names) :
    LeadsFromPackage graph path dots names := by
  obtain ⟨text', outline, hread', houtline, rfl⟩ := exists_of_load hload
  cases hread.symm.trans hread'
  obtain ⟨i, hi, rfl, hnames⟩ := h.exists_import path
  have himports : i ∈ outline.imports := by
    rw [Outline.eq_ofSoundTree hlanguage houtline]
    exact hi
  have hleads : ∀ target, target ∈ targetsOf graph.project.view path i → target ≠ path →
      target ∈ graph.next path := by
    intro target htarget hne
    rw [next_of_ok hload]
    exact mem_nextOf.2 (Or.inl ⟨hne, i, himports, htarget⟩)
  refine ⟨fun name hname hne target hmeans => ?_, fun hnone target hmeans => ?_⟩
  · exact hleads target ((mem_targetsOf_package h.ne_empty h.only_dots).2
      (Or.inl ⟨name, (hnames name).2 ⟨hname, hne⟩, hmeans⟩))
  · have hmodules : ∀ name ∈ i.specifiers,
        graph.project.view.resolveImport path (i.source ++ name) = none := fun name hname =>
      hnone name ((hnames name).1 hname).1 ((hnames name).1 hname).2
    exact hleads target ((mem_targetsOf_package h.ne_empty h.only_dots).2
      (Or.inr ⟨hmodules, hmeans⟩))

/-! ## 4. A module beside a name of the package -/

/-- The tree of a statement that imports names from the package of its file. -/
def packageTree (text : String) (stop : Nat) (names : Source → List Node) : Node :=
  let source := Source.ofString text
  let rule := source.rule
  let token := source.token
  rule 0 "module" none 0 (stop + 1)
    [rule 1 "import_from_statement" none 0 stop
      ([token 2 "from" 0 4,
        rule 3 "relative_import" (some "module_name") 5 6
          [rule 4 "import_prefix" none 5 6 [token 5 "." 5 6]],
        token 6 "import" 7 13] ++ names source)]

/-- The tree of `from . import user, helper`. -/
def bothTree : Node :=
  packageTree "from . import user, helper\n" 26 fun source =>
    [source.rule 7 "dotted_name" (some "name") 14 18 [source.rule 8 "identifier" none 14 18 []],
      source.token 9 "," 18 19,
      source.rule 10 "dotted_name" (some "name") 20 26 [source.rule 11 "identifier" none 20 26 []]]

/-- The tree of `from . import helper`. -/
def helperTree : Node :=
  packageTree "from . import helper\n" 20 fun source =>
    [source.rule 7 "dotted_name" (some "name") 14 20 [source.rule 8 "identifier" none 14 20 []]]

/-- The tree of `pass`. -/
def passTree : Node :=
  let source := Source.ofString "pass\n"
  source.rule 0 "module" none 0 5
    [source.rule 1 "pass_statement" none 0 4 [source.token 2 "pass" 0 4]]

/-- A package with two modules. Both import a name that the package may define, and the first imports
the second beside it. -/
def package : Project :=
  { view := (MemoryStore.ofFiles "/"
      [("/pkg/a.py", "from . import user, helper\n"), ("/pkg/user.py", "from . import helper\n"),
        ("/pkg/__init__.py", "pass\n")]).view
    grammar := fun path _ =>
      if path == "/pkg/a.py" then bothTree
      else if path == "/pkg/user.py" then helperTree else passTree }

theorem importsFrom_bothTree : Outline.Python.ImportsFrom bothTree "." ["user", "helper"] :=
  { ne_empty := by decide
    only_dots := fun c hc => by simpa using hc
    statement := by decide +kernel }

theorem importsFrom_helperTree : Outline.Python.ImportsFrom helperTree "." ["helper"] :=
  { ne_empty := by decide
    only_dots := fun c hc => by simpa using hc
    statement := by decide +kernel }

/-- In the first file the module among the names leads to its file, and in the second, where the name
is no module, the package is reached. -/
theorem leadsFromPackage_package :
    LeadsFromPackage (Session.graph {} package) "/pkg/a.py" "." ["user", "helper"] ∧
    "/pkg/user.py" ∈ (Session.graph {} package).next "/pkg/a.py" ∧
    LeadsFromPackage (Session.graph {} package) "/pkg/user.py" "." ["helper"] ∧
    "/pkg/__init__.py" ∈ (Session.graph {} package).next "/pkg/user.py" := by
  obtain ⟨first, hfirst⟩ : ∃ file, package.load "/pkg/a.py" = .ok file :=
    Outcome.exists_of_isSome_toOption (by decide +kernel)
  obtain ⟨second, hsecond⟩ : ∃ file, package.load "/pkg/user.py" = .ok file :=
    Outcome.exists_of_isSome_toOption (by decide +kernel)
  have hboth : LeadsFromPackage (Session.graph {} package) "/pkg/a.py" "." ["user", "helper"] :=
    next_of_importsFrom rfl rfl hfirst importsFrom_bothTree
  have hhelper : LeadsFromPackage (Session.graph {} package) "/pkg/user.py" "." ["helper"] :=
    next_of_importsFrom rfl rfl hsecond importsFrom_helperTree
  have hnone : ∀ name ∈ ["helper"], name ≠ "" →
      package.view.resolveImport "/pkg/user.py" ("." ++ name) = none := by decide +kernel
  exact ⟨hboth, hboth.modules "user" (by decide) (by decide) _ (by decide +kernel) (by decide),
    hhelper, hhelper.package hnone _ (by decide +kernel) (by decide)⟩

/-- **A module hides the package from the names beside it**: in the first file `helper` is no module,
and the package is another file that is there, but the file leads only to the module. -/
theorem hides_package :
    Outline.Python.ImportsFrom (package.grammar "/pkg/a.py" "from . import user, helper\n") "."
      ["user", "helper"] ∧
    package.view.resolveImport "/pkg/a.py" ".helper" = none ∧
    Means package.view "/pkg/a.py" "." "/pkg/__init__.py" ∧
    (Session.graph {} package).next "/pkg/a.py" = ["/pkg/user.py"] :=
  ⟨importsFrom_bothTree, by decide +kernel, by decide +kernel, by decide +kernel⟩

end Traversal

end CodeAtlas
