import CodeAtlas.Proofs.Outline.Comment.ScriptImport
import CodeAtlas.Proofs.Outline.Fault
import Mathlib.Data.List.Forall2

/-!
# Imports in source order

The imports of a file are read from the captures of a query, which are sorted and of which those with
one kind and one span count as one. In a tree whose nodes of one kind differ in their spans, none is
lost by that: the captures are what the query picks among all nodes in source order
(`Syntax.Node.captures_eq_filterMap`). So it is enough to look at one node at a time
(`Outline.Records`): a node that imports some modules gives one import for each, and any other node
gives none. The imports of the whole file are these, node by node in source order
(`Outline.imports_inSourceOrder`).
-/

namespace CodeAtlas

open Syntax

namespace Syntax

/-! ## 1. Sites in source order -/

/-- Source order: earlier start first, then later end. -/
def Site.before (a b : Site) : Bool :=
  Capture.before ⟨(), a⟩ ⟨(), b⟩

theorem Site.before_trans (a b c : Site) (hab : a.before b = true) (hbc : b.before c = true) :
    a.before c = true :=
  Capture.before_trans _ _ _ hab hbc

theorem Site.before_total (a b : Site) : (a.before b || b.before a) = true :=
  Capture.before_total _ _

namespace Node

/-- Every node of a tree in source order, each with the nodes above it. -/
def sortedSites (root : Node) : List Site :=
  root.sites.mergeSort Site.before

/-- **No two nodes of one kind have the same span.** -/
def HasDistinctSpans (root : Node) : Prop :=
  root.preorder.Pairwise fun a b => ¬ (a.kind = b.kind ∧ a.start = b.start ∧ a.stop = b.stop)

instance (root : Node) : Decidable root.HasDistinctSpans :=
  inferInstanceAs (Decidable (List.Pairwise _ _))

variable {root : Node}

/-- The nodes in source order are all nodes. -/
theorem perm_sortedSites (root : Node) : (root.sortedSites.map Site.node).Perm root.preorder :=
  (List.mergeSort_perm _ _).map Site.node

theorem pairwise_sortedSites (root : Node) :
    (root.sortedSites.map Site.node).Pairwise fun a b =>
      a.start < b.start ∨ a.start = b.start ∧ b.stop ≤ a.stop := by
  rw [List.pairwise_map]
  exact (List.pairwise_mergeSort Site.before_trans Site.before_total root.sites).imp
    Capture.before_iff.1

variable {α : Type} [BEq α] [LawfulBEq α]

/-- **Where spans tell nodes apart, no capture is lost**: what a query captures is what it picks among
the nodes in source order. -/
theorem captures_eq_filterMap (h : root.HasDistinctSpans) (query : Site → Option α) :
    root.captures query
      = root.sortedSites.filterMap fun site => (query site).map fun tag => ⟨tag, site⟩ := by
  have hkeys : ((root.found query).map Capture.key).Nodup := by
    rw [HasDistinctSpans, preorder, List.pairwise_map] at h
    rw [List.nodup_iff_pairwise_ne, List.pairwise_map, found]
    refine h.filterMap _ fun a b hab c hc d hd hkey => hab ?_
    obtain ⟨_, -, rfl⟩ := Option.map_eq_some_iff.1 hc
    obtain ⟨_, -, rfl⟩ := Option.map_eq_some_iff.1 hd
    exact ⟨congrArg (·.2.2.2) hkey, congrArg (·.2.1) hkey, congrArg (·.2.2.1) hkey⟩
  rw [captures_eq_mergeSort hkeys, sortedSites, found]
  symm
  refine Sorted.filterMap_mergeSort Site.before_trans Site.before_total Capture.before_trans
    Capture.before_total (fun a b c d hc hd => ?_) root.sites
  obtain ⟨_, -, rfl⟩ := Option.map_eq_some_iff.1 hc
  obtain ⟨_, -, rfl⟩ := Option.map_eq_some_iff.1 hd
  rfl

/-- What is read from the captures is read site by site. -/
theorem flatMap_captures {β : Type} (h : root.HasDistinctSpans) (query : Site → Option α)
    (read : Capture α → List β) :
    (root.captures query).flatMap read
      = root.sortedSites.flatMap fun site =>
          (query site).toList.flatMap fun tag => read ⟨tag, site⟩ := by
  rw [captures_eq_filterMap h, List.filterMap_eq_flatMap_toList, List.flatMap_assoc]
  refine List.flatMap_congr fun site _ => ?_
  cases query site with
  | none => rfl
  | some tag => rfl

theorem filterMap_captures_of_distinct {β : Type} (h : root.HasDistinctSpans)
    (query : Site → Option α) (read : Capture α → Option β) :
    (root.captures query).filterMap read
      = root.sortedSites.flatMap fun site =>
          ((query site).bind fun tag => read ⟨tag, site⟩).toList := by
  rw [captures_eq_filterMap h, List.filterMap_filterMap, List.filterMap_eq_flatMap_toList]
  refine List.flatMap_congr fun site _ => ?_
  rw [Option.bind_map]
  rfl

end Node

end Syntax

namespace Outline

/-! ## 2. What a node imports -/

/-- Whether the arguments of a call open with a string. A comment in front of it is their first node
then, and hides it. -/
def Script.opensWithString (call : Node) : Bool :=
  (call.fields "arguments").any fun list =>
    list.kind == "arguments" && (list.named.head?.map (·.kind)) == some "string"

/-- The first argument of a call, if that is a string. Where a call has more than one list of arguments,
as none that a grammar engine delivers has, it is that of the first list. -/
def Script.loaded? (call : Node) : Option Node :=
  ((call.field? "arguments").bind (·.named.head?)).filter (·.kind == "string")

/-- The node that names the module which a node of a script file imports: an import statement with a
source, an export statement with a source that is a string, or a call of `require` or `import` whose
arguments open with a string. -/
def Script.moduleNode? (n : Node) : Option Node :=
  if n.kind == "import_statement" then importedModule? n
  else if n.kind == "export_statement" then
    if (n.fields "source").any (·.kind == "string") then n.field? "source" else none
  else if n.kind == "call_expression" then
    if isImportCall n && opensWithString n then loaded? n else none
  else none

/-- The module that a part of a Python import statement names, without the alias. -/
def Python.moduleName (part : Node) : String :=
  if part.kind == "aliased_import" then part.fieldText "name" else part.text

/-- The modules that a node of a Python file imports: all that an import statement lists, or the one
that a statement imports names from. A statement that turns on a feature of the language, by importing
from `__future__`, is a node of another kind. -/
def Python.moduleNames (n : Node) : List String :=
  if n.kind == "import_statement" then (n.fields "name").map moduleName
  else if n.kind == "import_from_statement" then [n.fieldText "module_name"]
  else []

/-- The path that an import declaration of a Java file has. -/
def Java.modulePath? (n : Node) : Option Node :=
  if n.kind == "import_declaration" then n.child? ["scoped_identifier", "identifier"] else none

/-- **The modules that a node imports**, in a file of some language. -/
def importedModules (language : Language) (n : Node) : List String :=
  if n.label.isNamed then
    match language with
    | .java => (Java.modulePath? n).toList.map (·.text)
    | .python => Python.moduleNames n
    | .typescript | .javascript | .go =>
      (Script.moduleNode? n).toList.map fun source => stripQuotes source.text
  else []

/-! ## 3. Imports of one node -/

/-- **An import records that a node imports a module.** In Python an import statement takes the module
as a whole. -/
structure Records (language : Language) (n : Node) (module : String) (i : Import) : Prop where
  source : i.source = module
  line : i.line = n.line
  isNamespace : language = .python → n.kind = "import_statement" → i.isNamespace = true
  nodup : i.specifiers.Nodup
  nonempty : "" ∉ i.specifiers

namespace Records

variable {language : Language} {n : Node} {module : String} {i : Import}

/-- Another name is added only if it is a new one. -/
theorem addSpecifier (h : Records language n module i) (name : String) :
    Records language n module (i.addSpecifier name) := by
  unfold Import.addSpecifier
  by_cases hskip : (name.isEmpty || i.specifiers.contains name) = true
  · rw [if_pos hskip]
    exact h
  rw [if_neg hskip]
  rw [Bool.or_eq_true, String.isEmpty_iff, List.contains_iff_mem, not_or] at hskip
  refine ⟨h.source, h.line, h.isNamespace, ?_, ?_⟩
  · refine h.nodup.append (List.nodup_singleton name) ?_
    rw [List.disjoint_singleton]
    exact hskip.2
  · rw [List.mem_append, List.mem_singleton, not_or]
    exact ⟨h.nonempty, fun heq => hskip.1 heq.symm⟩

theorem addSpecifiers (h : Records language n module i) (names : List String) :
    Records language n module (i.addSpecifiers names) :=
  List.foldlRecOn names Import.addSpecifier h fun _ hi name _ => hi.addSpecifier name

theorem asDefault (h : Records language n module i) :
    Records language n module { i with isDefault := true } :=
  ⟨h.source, h.line, h.isNamespace, h.nodup, h.nonempty⟩

theorem asWhole (h : Records language n module i) (name : Option String) :
    Records language n module { i with isNamespace := true, asName := name } :=
  ⟨h.source, h.line, fun _ _ => rfl, h.nodup, h.nonempty⟩

theorem addClausePart (h : Records language n module i) (part : Node) :
    Records language n module (Script.addClausePart i part) := by
  unfold Script.addClausePart
  split
  · exact (h.addSpecifier _).asDefault
  split
  · exact h.asWhole _
  split
  · exact h.addSpecifiers _
  · exact h

theorem addBinding (h : Records language n module i) (declarator : Node) :
    Records language n module (Script.addBinding i declarator) := by
  unfold Script.addBinding
  split
  · exact h
  split
  · exact (h.addSpecifier _).asDefault
  split
  · exact h.addSpecifiers _
  · exact h

end Records

/-- An import without names that a node gives. -/
theorem records_bare {language : Language} {n : Node} {module : String} {i : Import}
    (hwhole : language = .python → n.kind = "import_statement" → i.isNamespace = true)
    (hsource : i.source = module) (hline : i.line = n.line) (hnames : i.specifiers = []) :
    Records language n module i := by
  refine ⟨hsource, hline, hwhole, ?_, ?_⟩
  · rw [hnames]
    exact List.nodup_nil
  · rw [hnames]
    exact List.not_mem_nil

/-! ### Script files -/

namespace Script

variable {language : Language}

theorem records_importedNames (h : language ≠ .python) (n source : Node) :
    Records language n (stripQuotes source.text) (importedNames n source) := by
  have hbare : Records language n (stripQuotes source.text)
      { source := stripQuotes source.text, isTypeOnly := n.hasToken "type", line := n.line } :=
    records_bare (fun hpython => absurd hpython h) rfl rfl rfl
  have hparts : ∀ {i : Import}, Records language n (stripQuotes source.text) i → ∀ parts : List Node,
      Records language n (stripQuotes source.text) (parts.foldl addClausePart i) :=
    fun hi parts => List.foldlRecOn parts addClausePart hi fun _ hi part _ => hi.addClausePart part
  unfold importedNames
  cases n.child? ["import_require_clause"] with
  | none =>
    cases n.child? ["import_clause"] with
    | none => exact hbare
    | some clause => exact hparts hbare clause.named
  | some required =>
    have hdefault := (hbare.addSpecifier (Node.textOf (required.child? ["identifier"]))).asDefault
    cases n.child? ["import_clause"] with
    | none => exact hdefault
    | some clause => exact hparts hdefault clause.named

theorem records_reExportImport (h : language ≠ .python) (n : Node) :
    Records language n (stripQuotes (n.fieldText "source")) (reExportImport n) := by
  have hbare : Records language n (stripQuotes (n.fieldText "source"))
      { source := stripQuotes (n.fieldText "source")
        isNamespace := (n.child? ["export_clause"]).isNone
        line := n.line } :=
    records_bare (fun hpython => absurd hpython h) rfl rfl rfl
  exact hbare.addSpecifiers _

/-- A call that imports a module, whatever it is bound to. -/
theorem records_callImport? (h : language ≠ .python) (site : Site) {function first : Node}
    (hcall : ((function.kind == "import" || function.text == "require") && first.kind == "string")
      = true) :
    ∃ i, callImport? site function first = some i ∧
      Records language site.node (stripQuotes first.text) i := by
  have hbare : Records language site.node (stripQuotes first.text)
      { source := stripQuotes first.text, isDynamic := true, line := site.node.line } :=
    records_bare (fun hpython => absurd hpython h) rfl rfl rfl
  rw [callImport?, if_pos hcall]
  split
  · split
    · exact ⟨_, rfl, hbare.addBinding _⟩
    · exact ⟨_, rfl, hbare⟩
  · exact ⟨_, rfl, hbare⟩

/-- A node that names a module, and an import that records it. -/
abbrev RecordsSource (language : Language) (n source : Node) (i : Import) : Prop :=
  Records language n (stripQuotes source.text) i

theorem rel_importStatement? (h : language ≠ .python) (n : Node) :
    Option.Rel (RecordsSource language n) (importedModule? n) (importStatement? n) := by
  rw [importStatement?_eq]
  cases importedModule? n with
  | none => exact .none
  | some source => exact .some (records_importedNames h n source)

theorem rel_reExportImport (h : language ≠ .python) {n : Node}
    (hsource : (n.fields "source").any (·.kind == "string") = true) :
    Option.Rel (RecordsSource language n) (n.field? "source") (some (reExportImport n)) := by
  have hrecords := records_reExportImport h n
  rw [Node.fieldText] at hrecords
  cases hfield : n.field? "source" with
  | some source =>
    rw [hfield] at hrecords
    exact .some hrecords
  | none =>
    -- then there is no source at all
    obtain ⟨source, hmem, -⟩ := List.any_eq_true.1 hsource
    rw [Node.fields, List.mem_filter] at hmem
    exact absurd hmem.2 (List.find?_eq_none.1 hfield source hmem.1)

theorem rel_importCall? (h : language ≠ .python) {site : Site}
    (hcall : isImportCall site.node = true) :
    Option.Rel (RecordsSource language site.node) (loaded? site.node) (importCall? site) := by
  obtain ⟨function, hfunction, hname⟩ := (Option.any_eq_true _ _).1 hcall
  rw [importCall?_eq, hfunction, Option.bind_some, loaded?]
  cases site.node.field? "arguments" with
  | none => exact .none
  | some list =>
    rw [Option.bind_some, Option.bind_some]
    cases list.named.head? with
    | none => exact .none
    | some first =>
      rw [Option.bind_some, Option.filter_some]
      by_cases hstring : (first.kind == "string") = true
      · obtain ⟨i, himport, hrecords⟩ := records_callImport? h site
          (Bool.and_eq_true_iff.2 ⟨hname, hstring⟩)
        rw [if_pos hstring, himport]
        exact .some hrecords
      · have hnot : callImport? site function first = none :=
          callImport?_of_not (by rw [Bool.eq_false_iff.2 hstring, Bool.and_false])
        rw [if_neg hstring, hnot]
        exact .none

/-- **A node of a script file gives one import if it names a module, and else none.** -/
theorem rel_importOf? (h : language ≠ .python) {site : Site}
    (hnamed : site.node.label.isNamed = true) :
    Option.Rel (RecordsSource language site.node) (moduleNode? site.node)
      ((importQuery site).bind fun tag => importOf? ⟨tag, site⟩) := by
  have hrule : ¬ (!site.node.label.isNamed) = true := by
    rw [hnamed]
    exact Bool.false_ne_true
  rw [importQuery, moduleNode?]
  dsimp only
  rw [if_neg hrule]
  by_cases hstatement : (site.node.kind == "import_statement") = true
  · rw [if_pos hstatement, if_pos hstatement]
    exact rel_importStatement? h site.node
  rw [if_neg hstatement, if_neg hstatement]
  by_cases hexport : (site.node.kind == "export_statement") = true
  · rw [if_pos hexport, if_pos hexport]
    by_cases hsource : (site.node.fields "source").any (·.kind == "string") = true
    · rw [if_pos hsource, if_pos hsource]
      exact rel_reExportImport h hsource
    · rw [if_neg hsource, if_neg hsource]
      exact .none
  rw [if_neg hexport, if_neg hexport]
  by_cases hcall : (site.node.kind == "call_expression") = true
  · rw [if_pos hcall, if_pos hcall, ← opensWithString]
    by_cases hstring : opensWithString site.node = true
    · rw [hstring, Bool.and_true, if_pos rfl]
      by_cases himport : isImportCall site.node = true
      · rw [if_pos himport]
        exact rel_importCall? h himport
      -- a call of anything else is captured all the same
      · have hnone := importCall?_of_not (Bool.eq_false_iff.2 himport)
        rw [if_neg himport, Option.bind_some, importOf?, hnone]
        exact .none
    · rw [if_neg hstring, Bool.eq_false_iff.2 hstring, Bool.and_false, if_neg Bool.false_ne_true]
      exact .none
  · rw [if_neg hcall, if_neg hcall]
    exact .none

end Script

/-! ### Python files -/

namespace Python

theorem importQuery_of_isNamed {site : Site} (h : site.node.label.isNamed = true) :
    importQuery site =
      if site.node.kind == "import_statement" then some .module
      else if site.node.kind == "import_from_statement" then some .names
      else none := by
  rw [importQuery, byKind, if_pos h]
  simp only [List.find?_cons, List.find?_nil, List.contains_cons, List.contains_nil, Bool.or_false]
  by_cases hmodule : (site.node.kind == "import_statement") = true
  · rw [hmodule]
    rfl
  rw [Bool.eq_false_iff.2 hmodule]
  by_cases hnames : (site.node.kind == "import_from_statement") = true
  · rw [hnames]
    rfl
  · rw [Bool.eq_false_iff.2 hnames]
    rfl

theorem records_moduleImport (n part : Node) :
    Records .python n (moduleName part) (moduleImport n.line part) := by
  refine records_bare (fun _ _ => rfl) ?_ rfl rfl
  rw [moduleImport, moduleName]
  by_cases haliased : (part.kind == "aliased_import") = true
  · rw [if_pos haliased, if_pos haliased]
  · rw [if_neg haliased, if_neg haliased]

theorem records_namesImport {n : Node} (h : n.kind ≠ "import_statement") :
    Records .python n (n.fieldText "module_name") (namesImport n) := by
  have hbare : Records .python n (n.fieldText "module_name")
      { source := n.fieldText "module_name"
        isNamespace := (n.child? ["wildcard_import"]).isSome
        line := n.line } :=
    records_bare (fun _ hkind => absurd hkind h) rfl rfl rfl
  exact hbare.addSpecifiers _

/-- **A node of a Python file gives one import for each module.** -/
theorem records_importsOf {site : Site} (hnamed : site.node.label.isNamed = true) :
    List.Forall₂ (Records .python site.node) (moduleNames site.node)
      ((importQuery site).toList.flatMap fun tag => importsOf ⟨tag, site⟩) := by
  rw [importQuery_of_isNamed hnamed, moduleNames]
  by_cases hmodule : (site.node.kind == "import_statement") = true
  · rw [if_pos hmodule, if_pos hmodule, Option.toList_some, List.flatMap_singleton, importsOf]
    dsimp only [Capture.node]
    rw [List.forall₂_map_left_iff, List.forall₂_map_right_iff, List.forall₂_same]
    exact fun part _ => records_moduleImport site.node part
  rw [if_neg hmodule, if_neg hmodule]
  by_cases hnames : (site.node.kind == "import_from_statement") = true
  · rw [if_pos hnames, if_pos hnames, Option.toList_some, List.flatMap_singleton, importsOf]
    exact .cons (records_namesImport (mt beq_iff_eq.2 hmodule)) .nil
  · rw [if_neg hnames, if_neg hnames]
    exact .nil

end Python

/-! ### Java files -/

namespace Java

theorem importQuery_of_isNamed {site : Site} (h : site.node.label.isNamed = true) :
    importQuery site = if site.node.kind == "import_declaration" then some () else none := by
  rw [importQuery, byKind, if_pos h]
  simp only [List.find?_cons, List.find?_nil, List.contains_cons, List.contains_nil, Bool.or_false]
  by_cases himport : (site.node.kind == "import_declaration") = true
  · rw [himport]
    rfl
  · rw [Bool.eq_false_iff.2 himport]
    rfl

/-- A path with an asterisk is imported as a whole, and else its last name. -/
theorem records_import (n path : Node) :
    Records .java n path.text
      (let i : Import := { source := path.text, line := n.line }
        if (n.child? ["asterisk"]).isSome then { i with isNamespace := true }
        else i.addSpecifier (lastSegment path.text)) := by
  have hbare : Records .java n path.text { source := path.text, line := n.line } :=
    records_bare (fun hpython => absurd hpython (by decide)) rfl rfl rfl
  dsimp only
  split
  · exact records_bare (fun _ _ => rfl) rfl rfl rfl
  · exact hbare.addSpecifier _

/-- **A node of a Java file gives one import if it has a path to import, and else none.** -/
theorem rel_importOf? {site : Site} (hnamed : site.node.label.isNamed = true) :
    Option.Rel (fun path i => Records .java site.node path.text i) (modulePath? site.node)
      ((importQuery site).bind fun tag => importOf? ⟨tag, site⟩) := by
  rw [importQuery_of_isNamed hnamed, modulePath?]
  by_cases himport : (site.node.kind == "import_declaration") = true
  · rw [if_pos himport, if_pos himport, Option.bind_some, importOf?]
    dsimp only [Capture.node]
    cases site.node.child? ["scoped_identifier", "identifier"] with
    | none => exact .none
    | some path => exact .some (records_import site.node path)
  · rw [if_neg himport, if_neg himport]
    exact .none

end Java

/-! ## 4. Imports of a file -/

theorem forall₂_toList {α β : Type} {R : α → β → Prop} {a : Option α} {b : Option β}
    (h : Option.Rel R a b) : List.Forall₂ R a.toList b.toList := by
  cases h with
  | some hab => exact .cons hab .nil
  | none => exact .nil

/-- What is related item by item is related as a whole. -/
theorem forall₂_flatMap {α β γ : Type} {R : β → γ → Prop} {f : α → List β} {g : α → List γ}
    (h : ∀ a, List.Forall₂ R (f a) (g a)) (items : List α) :
    List.Forall₂ R (items.flatMap f) (items.flatMap g) := by
  induction items with
  | nil => exact .nil
  | cons a items ih =>
    rw [List.flatMap_cons, List.flatMap_cons]
    exact List.rel_append (h a) ih

/-- The imports that a site gives. -/
def importsAt (language : Language) (site : Site) : List Import :=
  match language with
  | .java => ((Java.importQuery site).bind fun tag => Java.importOf? ⟨tag, site⟩).toList
  | .python => (Python.importQuery site).toList.flatMap fun tag => Python.importsOf ⟨tag, site⟩
  | .typescript | .javascript | .go =>
    ((Script.importQuery site).bind fun tag => Script.importOf? ⟨tag, site⟩).toList

/-- A node without a rule is never captured. -/
theorem importsAt_of_not_isNamed (language : Language) {site : Site}
    (h : site.node.label.isNamed = false) : importsAt language site = [] := by
  have hkind : ∀ {α : Type} (table : List (α × List String)), byKind table site = none := by
    intro α table
    rw [byKind, h, if_neg Bool.false_ne_true]
  cases language with
  | java => rw [importsAt, Java.importQuery, hkind, Option.bind_none, Option.toList_none]
  | python => rw [importsAt, Python.importQuery, hkind, Option.toList_none, List.flatMap_nil]
  | typescript | javascript | go =>
    rw [importsAt, Script.importQuery, h]
    rfl

/-- **One node at a time**: the imports of a site are one for each module that its node imports. -/
theorem records_importsAt (language : Language) (site : Site) :
    List.Forall₂ (Records language site.node) (importedModules language site.node)
      (importsAt language site) := by
  unfold importedModules
  by_cases hnamed : site.node.label.isNamed = true
  · rw [if_pos hnamed]
    cases language with
    | java =>
      rw [List.forall₂_map_left_iff]
      exact forall₂_toList (Java.rel_importOf? hnamed)
    | python => exact Python.records_importsOf hnamed
    | typescript | javascript | go =>
      rw [List.forall₂_map_left_iff]
      exact forall₂_toList (Script.rel_importOf? (by decide) hnamed)
  · rw [if_neg hnamed, importsAt_of_not_isNamed language (Bool.eq_false_iff.2 hnamed)]
    exact .nil

/-- **The whole file**: its imports are those of all sites in source order. -/
theorem imports_ofSoundTree (language : Language) (path : String) {root : Node}
    (h : root.HasDistinctSpans) :
    (ofSoundTree language path root).imports = root.sortedSites.flatMap (importsAt language) := by
  cases language with
  | java => exact Node.filterMap_captures_of_distinct h Java.importQuery Java.importOf?
  | python => exact Node.flatMap_captures h Python.importQuery Python.importsOf
  | typescript | javascript | go =>
    exact Node.filterMap_captures_of_distinct h Script.importQuery Script.importOf?

variable {language : Language} {path : String} {root : Node}

/-- Imports have the modules and the lines of what they record. -/
theorem map_of_records {pairs : List (Node × String)} {imports : List Import}
    (h : List.Forall₂ (fun (n, module) i => Records language n module i) pairs imports) :
    imports.map (fun i => (i.source, i.line)) = pairs.map fun (n, module) => (module, (n.line : Int)) := by
  rw [← List.forall₂_eq_eq_eq, List.forall₂_map_left_iff, List.forall₂_map_right_iff]
  exact h.flip.imp fun i p hi => Prod.ext hi.source hi.line

/-- Imports of nodes in source order do not go back to an earlier line. -/
theorem pairwise_line_of_records {order : List Node} {imports : List Import} {source : Source}
    (hperm : order.Perm root.preorder)
    (horder : order.Pairwise fun a b => a.start < b.start ∨ a.start = b.start ∧ b.stop ≤ a.stop)
    (hrecords : List.Forall₂ (fun (n, module) i => Records language n module i)
      (order.flatMap fun n => (importedModules language n).map fun module => (n, module)) imports)
    (hlines : root.HasLinesOf source) : imports.Pairwise fun a b => a.line ≤ b.line := by
  have hpairs : (imports.map fun i => (i.source, i.line)).Pairwise fun a b => a.2 ≤ b.2 := by
    rw [map_of_records hrecords, List.pairwise_map, List.pairwise_flatMap]
    refine ⟨fun n _ => ?_, horder.imp_of_mem fun {a b} ha hb hab => ?_⟩
    -- the imports of one node are on one line
    · rw [List.pairwise_map]
      exact List.pairwise_of_forall fun _ _ => Int.le_refl _
    · have hline : a.line ≤ b.line := by
        obtain ⟨s, hs, rfl⟩ := Node.mem_preorder.1 (hperm.mem_iff.1 ha)
        obtain ⟨t, ht, rfl⟩ := Node.mem_preorder.1 (hperm.mem_iff.1 hb)
        exact hlines.line_le hs ht (by omega)
      intro x hx y hy
      obtain ⟨_, -, rfl⟩ := List.mem_map.1 hx
      obtain ⟨_, -, rfl⟩ := List.mem_map.1 hy
      exact Int.ofNat_le.2 hline
  rw [List.pairwise_map] at hpairs
  exact hpairs

/-- **Imports are recorded completely and in source order.** In a tree without faults, whose nodes of
one kind differ in their spans, the nodes can be put in source order such that the imports of the file
are the imports of the nodes one after the other: one for each module that a node imports, wherever it
stands, and no other. So the lines of the imports never decrease. The names in each import are not
empty, and none occurs twice. -/
theorem imports_inSourceOrder (hsound : ∀ n ∈ root.preorder, n.isFault = false)
    (hspans : root.HasDistinctSpans) :
    ∃ o, ofTree language path root = .ok o ∧
      ∃ order : List Node, order.Perm root.preorder ∧
        order.Pairwise (fun a b => a.start < b.start ∨ a.start = b.start ∧ b.stop ≤ a.stop) ∧
        List.Forall₂ (fun (n, module) i => Records language n module i)
          (order.flatMap fun n => (importedModules language n).map fun module => (n, module))
          o.imports ∧
        ∀ source, root.HasLinesOf source → o.imports.Pairwise fun a b => a.line ≤ b.line := by
  have hrecords : List.Forall₂ (fun p i => Records language p.1 p.2 i)
      ((root.sortedSites.map Site.node).flatMap fun n =>
        (importedModules language n).map fun module => (n, module))
      (ofSoundTree language path root).imports := by
    rw [imports_ofSoundTree language path hspans, List.flatMap_map]
    refine forall₂_flatMap (fun site => ?_) root.sortedSites
    rw [List.forall₂_map_left_iff]
    exact records_importsAt language site
  refine ⟨ofSoundTree language path root, ofTree_of_sound (Node.firstFault?_eq_none hsound),
    root.sortedSites.map Site.node, root.perm_sortedSites, root.pairwise_sortedSites, hrecords,
    fun source hlines => ?_⟩
  exact pairwise_line_of_records root.perm_sortedSites root.pairwise_sortedSites hrecords hlines

/-- A file with a module loaded in a function, and with other modules imported before and after it. -/
def loadingText : String :=
  "import \x7b a, a \x7d from './m';\nfunction f() \x7b return require('./k'); \x7d\nexport * from './n';\n"

/-- The tree of `loadingText`. -/
def loadingTree : Node :=
  let rule := (Source.ofString loadingText).rule
  let token := (Source.ofString loadingText).token
  let specifier (id start : Nat) : Node :=
    rule id "import_specifier" none start (start + 1)
      [rule (id + 1) "identifier" (some "name") start (start + 1) []]
  rule 0 "program" none 0 89
    [rule 1 "import_statement" none 0 27
      [token 2 "import" 0 6,
        rule 3 "import_clause" none 7 15
          [rule 4 "named_imports" none 7 15
            [token 5 "\x7b" 7 8, specifier 6 9, token 8 "," 10 11, specifier 9 12,
              token 11 "\x7d" 14 15]],
        token 12 "from" 16 20, rule 13 "string" (some "source") 21 26 [], token 14 ";" 26 27],
      rule 15 "function_declaration" none 28 67
        [token 16 "function" 28 36, rule 17 "identifier" (some "name") 37 38 [],
          rule 18 "formal_parameters" (some "parameters") 38 40 [token 19 "(" 38 39, token 20 ")" 39 40],
          rule 21 "statement_block" (some "body") 41 67
            [token 22 "\x7b" 41 42,
              rule 23 "return_statement" none 43 65
                [token 24 "return" 43 49,
                  rule 25 "call_expression" none 50 64
                    [rule 26 "identifier" (some "function") 50 57 [],
                      rule 27 "arguments" (some "arguments") 57 64
                        [token 28 "(" 57 58, rule 29 "string" none 58 63 [], token 30 ")" 63 64]],
                  token 31 ";" 64 65],
              token 32 "\x7d" 66 67]],
      rule 33 "export_statement" none 68 88
        [token 34 "export" 68 74, token 35 "*" 75 76, token 36 "from" 77 81,
          rule 37 "string" (some "source") 82 87 [], token 38 ";" 87 88]]

/-- Of three imports in different forms the one within a function comes second. -/
theorem imports_inSourceOrder_loadingTree :
    (∀ n ∈ loadingTree.preorder, n.isFault = false) ∧ loadingTree.HasDistinctSpans ∧
    loadingTree.HasLinesOf (Source.ofString loadingText) ∧
    ∃ o, ofTree .typescript "/src/a.ts" loadingTree = .ok o ∧
      o.imports.map (fun i => (i.source, i.line)) = [("./m", 1), ("./k", 2), ("./n", 3)] := by
  have hsound : ∀ n ∈ loadingTree.preorder, n.isFault = false := by decide +kernel
  have hspans : loadingTree.HasDistinctSpans := by decide +kernel
  have hlines : loadingTree.HasLinesOf (Source.ofString loadingText) := by decide +kernel
  obtain ⟨o, hread, order, hperm, -, hrecords, hsorted⟩ :=
    @imports_inSourceOrder .typescript "/src/a.ts" loadingTree hsound hspans
  refine ⟨hsound, hspans, hlines, o, hread, ?_⟩
  have hall : (loadingTree.preorder.flatMap fun n =>
        (importedModules .typescript n).map fun module => (n, module)).map
        (fun (n, module) => (module, (n.line : Int)))
      = [("./m", 1), ("./k", 2), ("./n", 3)] := by
    decide +kernel
  have hperm' : (o.imports.map fun i => (i.source, i.line)).Perm
      [("./m", 1), ("./k", 2), ("./n", 3)] := by
    rw [map_of_records hrecords, ← hall]
    exact (hperm.flatMap_right _).map _
  -- which imports there are is known, and their lines leave one order for them
  have honly : ∀ a ∈ [("./m", (1 : Int)), ("./k", 2), ("./n", 3)],
      ∀ b ∈ [("./m", (1 : Int)), ("./k", 2), ("./n", 3)], a.2 ≤ b.2 → b.2 ≤ a.2 → a = b := by
    decide
  have hsorted' : (o.imports.map fun i => (i.source, i.line)).Pairwise fun a b => a.2 ≤ b.2 := by
    rw [List.pairwise_map]
    exact hsorted _ hlines
  exact hperm'.eq_of_pairwise (fun a b ha hb => honly a (hperm'.mem_iff.1 ha) b hb) hsorted'
    (by decide)

end Outline

end CodeAtlas
