import CodeAtlas.Proofs.Outline.Comment.ScriptImport
import CodeAtlas.Proofs.Renaming.Lead
import CodeAtlas.Proofs.Traversal.Package
import Mathlib.Data.List.Forall2

/-!
# Aliases in import statements

An import statement takes names from a module, some of them under other names (`ImportText`). What the
traversal knows of an import are the names as the module has them (`ImportText.meaning`), so a
statement that gives an alias up means what it meant (`Renaming.meaning_unaliasedText`). Two files
whose statements say the same but for such an alias have imports of the same meaning
(`Renaming.ImportsSame.meaning`).
-/

namespace CodeAtlas

open Syntax

/-! ## 1. What import statements say -/

/-- A part of an import statement. -/
inductive ImportPart where
  /-- One thing under a name of its own. -/
  | single (name : String)
  /-- All of the module, under a name if there is one. -/
  | whole (name : Option String)
  /-- Names that the module has, each with its alias, which is empty if there is none. -/
  | names (pairs : List (String × String))
  | other
  deriving DecidableEq

/-- What an import statement says: the module as written, and what it takes from it. -/
structure ImportText where
  source : String
  parts : List ImportPart
  deriving DecidableEq

/-- An import with one part more. -/
def ImportPart.add (i : Import) : ImportPart → Import
  | .single name => i.addSpecifier name
  | .whole name => { i with isNamespace := true, asName := name }
  | .names pairs => i.addSpecifiers (pairs.map (·.1))
  | .other => i

/-- **What an import statement means**: of names that the module has, the aliases are lost. -/
def ImportText.meaning (said : ImportText) : Import :=
  said.parts.foldl ImportPart.add { source := said.source }

/-- **A statement imports a name under an alias.** -/
def ImportText.Has (said : ImportText) (name given : String) : Prop :=
  ∃ pairs, .names pairs ∈ said.parts ∧ (name, given) ∈ pairs

/-- A name and its alias as source text has them. -/
def namedPair (nameNode : Node) : String × String :=
  (nameNode.fieldText "name", nameNode.fieldText "alias")

namespace Outline

namespace Script

/-- What a part of an import clause says. -/
def partOf (part : Node) : ImportPart :=
  if part.kind == "identifier" then .single part.text
  else if part.kind == "namespace_import" then
    .whole (nonempty? (Node.textOf (part.child? ["identifier"])))
  else if part.kind == "named_imports" then
    .names ((part.childrenOf "import_specifier").map namedPair)
  else .other

/-- What an import statement says. -/
def importText? (statement : Node) : Option ImportText :=
  (importedModule? statement).map fun source =>
    { source := stripQuotes source.text
      parts :=
        (statement.child? ["import_require_clause"]).toList.map (fun clause =>
          .single (Node.textOf (clause.child? ["identifier"]))) ++
        (statement.child? ["import_clause"]).toList.flatMap fun clause =>
          clause.named.map partOf }

end Script

namespace Python

/-- What a statement says that imports names from a module. -/
def importText (statement : Node) : ImportText :=
  { source := statement.fieldText "module_name"
    parts :=
      (statement.child? ["wildcard_import"]).toList.map (fun _ => .whole none) ++
        [.names ((statement.fields "name").map fun nameNode =>
          if nameNode.kind == "aliased_import" then namedPair nameNode else (nameNode.text, ""))] }

end Python

end Outline

/-! ## 2. What they mean -/

namespace Import

variable {i j : Import}

theorem addSpecifier_meaning (i : Import) (name : String) :
    (i.addSpecifier name).meaning = i.meaning.addSpecifier name := by
  rw [addSpecifier, addSpecifier, apply_ite meaning]
  rfl

theorem addSpecifiers_meaning (i : Import) (names : List String) :
    (i.addSpecifiers names).meaning = i.meaning.addSpecifiers names := by
  rw [addSpecifiers, addSpecifiers]
  induction names generalizing i with
  | nil => rfl
  | cons name names ih => rw [List.foldl_cons, List.foldl_cons, ih, addSpecifier_meaning]

end Import

namespace Outline

/-- A part of a clause is added as it says. -/
theorem Script.addClausePart_meaning (i : Import) (part : Node) :
    (addClausePart i part).meaning = (partOf part).add i.meaning := by
  rw [addClausePart, partOf]
  split
  · exact i.addSpecifier_meaning part.text
  split
  · rfl
  split
  · rw [Import.addSpecifiers_meaning, ImportPart.add, List.map_map]
    rfl
  · rfl

theorem Script.clause_meaning (i : Import) (clause : Node) :
    (clause.named.foldl addClausePart i).meaning
      = (clause.named.map partOf).foldl ImportPart.add i.meaning := by
  induction clause.named generalizing i with
  | nil => rfl
  | cons part parts ih =>
    rw [List.foldl_cons, List.map_cons, List.foldl_cons, ih, addClausePart_meaning]

/-- **An import statement of a script file means what it says.** -/
theorem Script.importStatement?_meaning (statement : Node) :
    (importStatement? statement).map Import.meaning
      = (importText? statement).map ImportText.meaning := by
  have hclause : ∀ (i : Import) (clause : Node), (clause.named.foldl addClausePart i).meaning
      = ([clause].flatMap fun clause => clause.named.map partOf).foldl ImportPart.add i.meaning := by
    intro i clause
    rw [List.flatMap_singleton]
    exact clause_meaning i clause
  rw [importStatement?_eq, importText?, Option.map_map, Option.map_map]
  refine congrArg (fun f => Option.map f _) (funext fun source => ?_)
  rw [Function.comp_apply, Function.comp_apply, importedNames, ImportText.meaning,
    List.foldl_append]
  cases statement.child? ["import_require_clause"] with
  | none =>
    cases statement.child? ["import_clause"] with
    | none => rfl
    | some clause => exact hclause _ clause
  | some required =>
    cases statement.child? ["import_clause"] with
    | none => exact Import.addSpecifier_meaning _ _
    | some clause =>
      refine (hclause _ clause).trans (congrArg (fun i => List.foldl _ i _) ?_)
      exact Import.addSpecifier_meaning _ _

/-- **A statement of a Python file that imports names means what it says.** -/
theorem Python.namesImport_meaning (statement : Node) :
    (namesImport statement).meaning = (importText statement).meaning := by
  have hnames : (statement.fields "name").map (fun nameNode =>
        if nameNode.kind == "aliased_import" then nameNode.fieldText "name" else nameNode.text)
      = ((statement.fields "name").map fun nameNode =>
        if nameNode.kind == "aliased_import" then namedPair nameNode
        else (nameNode.text, "")).map (·.1) := by
    rw [List.map_map]
    refine List.map_congr_left fun nameNode _ => ?_
    rw [Function.comp_apply, apply_ite Prod.fst]
    rfl
  rw [namesImport, Import.addSpecifiers_meaning, hnames, ImportText.meaning, importText,
    List.foldl_append]
  cases statement.child? ["wildcard_import"] <;> rfl

/-- What the import statements of a file say. -/
def importTexts (language : Language) (root : Node) : List ImportText :=
  match language with
  | .python => ((root.captures Python.importQuery).filter (·.tag == .names)).map fun c =>
      Python.importText c.node
  | _ => ((root.captures Script.importQuery).filter (·.tag == .statement)).filterMap fun c =>
      Script.importText? c.node

/-- **A file imports a name from a module under an alias.** -/
def ImportsAs (language : Language) (root : Node) (source name given : String) : Prop :=
  ∃ said ∈ importTexts language root, said.source = source ∧ said.Has name given

/-- **Every import statement is an import.** -/
theorem exists_meaning_of_mem_importTexts {language : Language} (hjava : language ≠ .java)
    {root : Node} {said : ImportText} (h : said ∈ importTexts language root) (path : String) :
    ∃ i ∈ (ofSoundTree language path root).imports, i.meaning = said.meaning := by
  have hscript : said ∈ ((root.captures Script.importQuery).filter (·.tag == .statement)).filterMap
        (fun c => Script.importText? c.node) →
      ∃ i ∈ (root.captures Script.importQuery).filterMap Script.importOf?,
        i.meaning = said.meaning := by
    intro h
    obtain ⟨capture, hcapture, hsaid⟩ := List.mem_filterMap.1 h
    obtain ⟨hmem, htag⟩ := List.mem_filter.1 hcapture
    have hmeaning := Script.importStatement?_meaning capture.node
    rw [hsaid, Option.map_some, Option.map_eq_some_iff] at hmeaning
    obtain ⟨i, hi, hsame⟩ := hmeaning
    refine ⟨i, List.mem_filterMap.2 ⟨capture, hmem, ?_⟩, hsame⟩
    rw [Script.importOf?, beq_iff_eq.1 htag]
    exact hi
  cases language with
  | java => exact absurd rfl hjava
  | python =>
    obtain ⟨capture, hcapture, rfl⟩ := List.mem_map.1 h
    obtain ⟨hmem, htag⟩ := List.mem_filter.1 hcapture
    refine ⟨Python.namesImport capture.node, List.mem_flatMap.2 ⟨capture, hmem, ?_⟩,
      Python.namesImport_meaning capture.node⟩
    rw [Python.importsOf, beq_iff_eq.1 htag]
    exact List.mem_singleton_self _
  | typescript | javascript | go => exact hscript h

end Outline

namespace ImportPart

theorem source_foldl_add (i : Import) (parts : List ImportPart) :
    (parts.foldl add i).source = i.source := by
  induction parts generalizing i with
  | nil => rfl
  | cons part parts ih =>
    rw [List.foldl_cons, ih]
    cases part with
    | single name => exact i.source_addSpecifiers [name]
    | whole name => rfl
    | names pairs => exact i.source_addSpecifiers _
    | other => rfl

theorem mem_specifiers_add {i : Import} {name : String} (h : name ∈ i.specifiers)
    (part : ImportPart) : name ∈ (part.add i).specifiers := by
  cases part with
  | single added => exact Import.mem_specifiers_addSpecifier.2 (Or.inl h)
  | whole added => exact h
  | names pairs => exact Import.mem_specifiers_addSpecifiers.2 (Or.inl h)
  | other => exact h

end ImportPart

/-- **A name that is imported under an alias is known by the name that the module has.** -/
theorem ImportText.Has.mem_specifiers {said : ImportText} {name given : String}
    (h : said.Has name given) (hname : name ≠ "") : name ∈ said.meaning.specifiers := by
  obtain ⟨pairs, hpairs, hpair⟩ := h
  obtain ⟨before, after, hparts⟩ := List.append_of_mem hpairs
  rw [meaning, hparts, List.foldl_append, List.foldl_cons]
  refine List.foldlRecOn (motive := fun i : Import => name ∈ i.specifiers) after ImportPart.add ?_
    fun i hi part _ => ImportPart.mem_specifiers_add hi part
  exact Import.mem_specifiers_addSpecifiers.2
    (Or.inr ⟨List.mem_map.2 ⟨(name, given), hpair, rfl⟩, hname⟩)

/-- **The import of a name under an alias.** -/
theorem Outline.ImportsAs.exists_import {language : Language} (hjava : language ≠ .java)
    {root : Node} {source name given : String} (h : ImportsAs language root source name given)
    (hname : name ≠ "") (path : String) :
    ∃ i ∈ (ofSoundTree language path root).imports, i.source = source ∧ name ∈ i.specifiers := by
  obtain ⟨said, hsaid, rfl, hhas⟩ := h
  obtain ⟨i, hi, hmeaning⟩ := exists_meaning_of_mem_importTexts hjava hsaid path
  refine ⟨i, hi, ?_, ?_⟩
  · exact (congrArg Import.source hmeaning).trans (ImportPart.source_foldl_add _ said.parts)
  · exact congrArg Import.specifiers hmeaning ▸ hhas.mem_specifiers hname

/-! ## 3. An alias that is given up -/

namespace Renaming

variable (r : Renaming)

/-- The pair without the alias, if it imports the new name under the old one. -/
def unaliased (pair : String × String) : String × String :=
  if pair.1.toList = r.new ∧ pair.2.toList = r.old then (pair.1, "") else pair

theorem fst_unaliased (pair : String × String) : (r.unaliased pair).1 = pair.1 := by
  rw [unaliased, apply_ite Prod.fst, ite_self]

/-- A part of a statement without that alias. -/
def unaliasedPart : ImportPart → ImportPart
  | .names pairs => .names (pairs.map r.unaliased)
  | part => part

/-- **A statement without the alias**: what it imports as the old name has its new name. -/
def unaliasedText (said : ImportText) : ImportText :=
  { said with parts := said.parts.map r.unaliasedPart }

theorem add_unaliasedPart (i : Import) (part : ImportPart) :
    (r.unaliasedPart part).add i = part.add i := by
  cases part with
  | names pairs =>
    rw [unaliasedPart, ImportPart.add, List.map_map]
    exact congrArg i.addSpecifiers (List.map_congr_left fun pair _ => r.fst_unaliased pair)
  | single name => rfl
  | whole name => rfl
  | other => rfl

/-- **Without the alias a statement means what it meant.** -/
theorem meaning_unaliasedText (said : ImportText) : (r.unaliasedText said).meaning = said.meaning := by
  rw [ImportText.meaning, unaliasedText, List.foldl_map, ImportText.meaning]
  exact congrArg (fun add => List.foldl add _ _)
    (funext fun i => funext fun part => r.add_unaliasedPart i part)

/-- **Two captured imports of script files say the same**: statements but for the alias, and other
imports mean the same. -/
structure SaysSameScript (c d : Capture Outline.Script.ImportForm) : Prop where
  tag : c.tag = d.tag
  statement : d.tag = .statement → (Outline.Script.importText? c.node).map r.unaliasedText
    = (Outline.Script.importText? d.node).map r.unaliasedText
  other : d.tag ≠ .statement → (Outline.Script.importOf? c).map Import.meaning
    = (Outline.Script.importOf? d).map Import.meaning

/-- The captured statements of two script files can be compared. -/
instance decidableSaysSameScript (c d : Capture Outline.Script.ImportForm) :
    Decidable (r.SaysSameScript c d) :=
  decidable_of_iff
    (c.tag = d.tag ∧
      (d.tag = .statement → (Outline.Script.importText? c.node).map r.unaliasedText
        = (Outline.Script.importText? d.node).map r.unaliasedText) ∧
      (d.tag ≠ .statement → (Outline.Script.importOf? c).map Import.meaning
        = (Outline.Script.importOf? d).map Import.meaning))
    ⟨fun h => ⟨h.1, h.2.1, h.2.2⟩, fun h => ⟨h.tag, h.statement, h.other⟩⟩

/-- **Two captured imports of Python files say the same**: statements that import names but for the
alias, and other imports mean the same. -/
structure SaysSamePython (c d : Capture Outline.Python.ImportForm) : Prop where
  tag : c.tag = d.tag
  names : d.tag = .names → r.unaliasedText (Outline.Python.importText c.node)
    = r.unaliasedText (Outline.Python.importText d.node)
  module : d.tag = .module → (Outline.Python.importsOf c).map Import.meaning
    = (Outline.Python.importsOf d).map Import.meaning

variable {r}

theorem SaysSameScript.meaning {c d : Capture Outline.Script.ImportForm}
    (h : r.SaysSameScript c d) : (Outline.Script.importOf? c).map Import.meaning
      = (Outline.Script.importOf? d).map Import.meaning := by
  by_cases hd : d.tag = .statement
  · have hmeaning : ∀ said : Option ImportText, said.map ImportText.meaning
        = (said.map r.unaliasedText).map ImportText.meaning := by
      intro said
      rw [Option.map_map]
      exact congrArg (fun f => Option.map f said)
        (funext fun said => (r.meaning_unaliasedText said).symm)
    rw [Outline.Script.importOf?, Outline.Script.importOf?, h.tag, hd]
    dsimp only
    rw [Outline.Script.importStatement?_meaning, hmeaning, h.statement hd, ← hmeaning,
      Outline.Script.importStatement?_meaning]
  · exact h.other hd

theorem SaysSamePython.meaning {c d : Capture Outline.Python.ImportForm}
    (h : r.SaysSamePython c d) : (Outline.Python.importsOf c).map Import.meaning
      = (Outline.Python.importsOf d).map Import.meaning := by
  cases hd : d.tag with
  | names =>
    rw [Outline.Python.importsOf, Outline.Python.importsOf, h.tag, hd]
    refine congrArg List.singleton ?_
    rw [Outline.Python.namesImport_meaning, ← r.meaning_unaliasedText, h.names hd,
      r.meaning_unaliasedText, Outline.Python.namesImport_meaning]
  | module => exact h.module hd

/-- **Two files of a language import the same**, but for the alias. -/
def ImportsSame (r : Renaming) (language : Language) (root root' : Node) : Prop :=
  match language with
  | .python => List.Forall₂ r.SaysSamePython (root'.captures Outline.Python.importQuery)
      (root.captures Outline.Python.importQuery)
  | _ => List.Forall₂ r.SaysSameScript (root'.captures Outline.Script.importQuery)
      (root.captures Outline.Script.importQuery)

/-- The same is read from lists that correspond. -/
theorem map_flatMap_of_forall₂ {α β γ : Type} {relates : α → α → Prop} {read : α → List β}
    {g : β → γ} (h : ∀ {a b}, relates a b → (read a).map g = (read b).map g) {as bs : List α}
    (hall : List.Forall₂ relates as bs) : (as.flatMap read).map g = (bs.flatMap read).map g := by
  induction hall with
  | nil => rfl
  | cons hab _ ih => rw [List.flatMap_cons, List.flatMap_cons, List.map_append, List.map_append,
      h hab, ih]

/-- **Imports that are the same but for the alias mean the same.** -/
theorem ImportsSame.meaning {language : Language} (hjava : language ≠ .java) {root root' : Node}
    (h : r.ImportsSame language root root') (path : String) :
    (Outline.ofSoundTree language path root').imports.map Import.meaning
      = (Outline.ofSoundTree language path root).imports.map Import.meaning := by
  have hscript : List.Forall₂ r.SaysSameScript (root'.captures Outline.Script.importQuery)
        (root.captures Outline.Script.importQuery) →
      ((root'.captures Outline.Script.importQuery).filterMap Outline.Script.importOf?).map
          Import.meaning
        = ((root.captures Outline.Script.importQuery).filterMap Outline.Script.importOf?).map
          Import.meaning := by
    intro h
    rw [List.filterMap_eq_flatMap_toList, List.filterMap_eq_flatMap_toList]
    refine map_flatMap_of_forall₂ (fun hsame => ?_) h
    rw [← Option.toList_map, hsame.meaning, Option.toList_map]
  cases language with
  | java => exact absurd rfl hjava
  | python => exact map_flatMap_of_forall₂ (fun hsame => hsame.meaning) h
  | typescript | javascript | go => exact hscript h

end Renaming

end CodeAtlas
