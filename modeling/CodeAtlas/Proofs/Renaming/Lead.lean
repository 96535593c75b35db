import CodeAtlas.Proofs.Index.Form
import CodeAtlas.Proofs.Renaming.Reference
import CodeAtlas.Proofs.Traversal.NextHop

/-!
# Where a file leads, under a new name

Where a file leads is said by what its imports mean and by where each name that it refers to leads
(`ImportGraph.nextOf_eq`). A name leads somewhere only if another file declares it, which it does for
names alone (`FileView.Declares.isName`), and only if no import accounts for it. So a renaming passes
by that search if no other file declares the old name and an import accounts for the new one
(`ImportGraph.passes_leadOf`), and then two files that are the same under it lead to the same files
(`ImportGraph.nextOf_eq_of_usage`).
-/

namespace CodeAtlas

open CodeAtlas.TypeName (isIdentifierChar)

/-! ## 1. Declared names are names -/

theorem isIdentifierChar_of_isUpper {c : Char} (h : c.isUpper = true) :
    isIdentifierChar c = true := by
  have hrange : 'A'.val ≤ c.val ∧ c.val ≤ 'Z'.val := of_decide_eq_true h
  have hhigh : c.toNat ≤ 90 := UInt32.le_iff_toNat_le.1 hrange.2
  have hlow : c.toNat < 0x80 := by omega
  have halnum : c.isAlphanum = true := by
    change (c.isUpper || c.isLower || c.isDigit) = true
    rw [h, Bool.true_or, Bool.true_or]
  rw [isIdentifierChar, Text.isWord, if_pos hlow, halnum, Bool.true_or, Bool.true_or]

namespace Index

variable {form : Form} {goesOn : Char → Bool} {cs after : List Char} {name : String}
  {language : Language}

theorem Form.IsAnchored.isName (h : form.IsAnchored goesOn)
    (hgoesOn : ∀ c, goesOn c = true → isIdentifierChar c = true)
    (hform : form cs = some (name, after)) : IsName name.toList := by
  obtain ⟨c, rest, hcapital, rfl, -⟩ := h cs name after hform
  rw [String.toList_ofList]
  refine ⟨List.cons_ne_nil _ _, fun d hd => ?_⟩
  rcases List.mem_cons.1 hd with rfl | hd
  · exact isIdentifierChar_of_isUpper (isUpper_of_fromCapital? hcapital)
  · exact hgoesOn d (List.all_eq_true.1 List.all_takeWhile d hd)

/-- Every form finds names. -/
theorem isName_of_mem_forms (hmem : form ∈ forms language)
    (hform : form cs = some (name, after)) : IsName name.toList := by
  have hscript : ∀ {modifiers keyword}, (∀ word ∈ modifiers, IsKeyword word) →
      IsKeyword keyword → ∀ {cs after}, scriptForm modifiers keyword cs = some (name, after) →
      IsName name.toList := by
    intro modifiers keyword hwords hkeyword cs after hform
    exact (isAnchored_scriptForm hwords hkeyword).isName (fun _ hc => hc) hform
  have hword : ∀ c, Text.isWord c = true → isIdentifierChar c = true := fun c hc => by
    rw [isIdentifierChar, hc, Bool.true_or]
  cases language with
  | typescript =>
    rw [forms] at hmem
    simp only [List.mem_cons, List.not_mem_nil, or_false] at hmem
    rcases hmem with rfl | rfl | rfl | rfl
    · exact hscript (by decide) (by decide) hform
    · exact hscript (by decide) (by decide) hform
    · obtain ⟨⟨found, rest⟩, hfound, halias⟩ := Option.bind_eq_some_iff.1 hform
      obtain ⟨behind, -, hequals⟩ := Option.bind_eq_some_iff.1 halias
      split at hequals
      · cases hequals
        exact hscript (by decide) (by decide) hfound
      · cases hequals
    · exact hscript (by decide) (by decide) hform
  | javascript =>
    rw [List.mem_singleton.1 hmem] at hform
    exact hscript (by decide) (by decide) hform
  | java =>
    rw [List.mem_singleton.1 hmem] at hform
    exact isAnchored_javaType.isName hword hform
  | python =>
    rw [List.mem_singleton.1 hmem] at hform
    exact isAnchored_pythonClass.isName hword hform
  | go => exact absurd hmem List.not_mem_nil

theorem isName_of_mem_declaredNames {language : Option Language} {text : String}
    (h : name ∈ declaredNames language text) : IsName name.toList := by
  cases language with
  | none => exact absurd h List.not_mem_nil
  | some language =>
    obtain ⟨form, hform, hname⟩ := List.mem_flatMap.1 (List.mem_eraseDups.1 h)
    obtain ⟨text, after, hfound⟩ := exists_of_mem_namesFrom hname
    exact isName_of_mem_forms hform hfound

end Index

/-- **Files declare names only.** -/
theorem FileView.Declares.isName {view : FileView} {path name : String}
    (h : view.Declares path name) : IsName name.toList := by
  obtain ⟨language, text, -, -, hname⟩ := h
  exact Index.isName_of_mem_declaredNames hname

/-! ## 2. What matters of an import -/

/-- What an import means and what names it brings in, without what else is known of it. -/
def Import.meaning (i : Import) : Import :=
  { source := i.source, specifiers := i.specifiers, isNamespace := i.isNamespace, asName := i.asName }

namespace Traversal

theorem Lookup.choose?_meaning (lookup : Lookup) (path name : String) (imports : List Import) :
    lookup.choose? path name (imports.map Import.meaning) = lookup.choose? path name imports := by
  have hfilter : ∀ {p : Import → Bool}, (∀ i, p i.meaning = p i) →
      ((imports.map Import.meaning).filter p).map (·.source) = (imports.filter p).map (·.source) := by
    intro p hp
    have hsame : p ∘ Import.meaning = p := funext hp
    rw [List.filter_map, List.map_map, hsame]
    rfl
  have hsources : sourcesOf name (imports.map Import.meaning) = sourcesOf name imports := by
    rw [sourcesOf, hfilter fun _ => rfl, hfilter fun _ => rfl, sourcesOf]
  rw [choose?, hsources, choose?]

namespace ImportGraph

variable {graph a b : ImportGraph} {path : String} {o o' : Outline} {r : Renaming}

/-! ## 3. Where names lead -/

/-- The names that the imports of a file account for. -/
def coveredNames (view : FileView) (path : String) (imports : List Import) : List String :=
  (resolved view path imports).flatMap namesOf

/-- **Where a name in a file leads**: nowhere if the file declares it or an import accounts for it,
and else to the file that it is looked up in. -/
def leadOf (graph : ImportGraph) (path : String) (o : Outline) (name : String) : Option String :=
  if !o.declaredNames.contains name &&
      !(coveredNames graph.project.view path o.imports).contains name then
    graph.lookup.choose? path name o.imports
  else none

/-- **Where a file leads**: where its imports do, and then where its names do. -/
theorem nextOf_eq (graph : ImportGraph) (path : String) (o : Outline) :
    graph.nextOf path (.ofOutline o)
      = ((o.imports.flatMap (targetsOf graph.project.view path)).filter (· != path) ++
          leadsBy (graph.leadOf path o) o.classes).eraseDups := by
  have hopen : (openNames graph.project.view path (.ofOutline o)).filterMap
        (fun name => graph.lookup.choose? path name o.imports)
      = (referencedNames (.ofOutline o)).filterMap (graph.leadOf path o) := by
    rw [openNames, List.filterMap_filter]
    rfl
  change (_ ++ (openNames graph.project.view path (.ofOutline o)).filterMap
    (fun name => graph.lookup.choose? path name o.imports)).eraseDups = _
  rw [hopen, referencedNames, eraseDups_append_filterMap_eraseDups]
  exact congrArg (fun leads => List.eraseDups (_ ++ leads)) (filterMap_references o)

/-- **A renaming passes by the search** where no other file declares the old name, and an import that
means a file accounts for the new one. -/
theorem passes_leadOf (hfaithful : graph.lookup.IsFaithful graph.project.view)
    (hold : ∀ p ∈ graph.lookup.scope, p ≠ path →
      ¬ graph.project.view.Declares p (String.ofList r.old))
    (hnew : String.ofList r.new ∈ coveredNames graph.project.view path o.imports) :
    r.Passes (graph.leadOf path o) := by
  intro name target hlead
  unfold leadOf at hlead
  split at hlead
  · rename_i hopen
    rw [Bool.and_eq_true, Bool.not_eq_true', Bool.not_eq_true', ← Bool.not_eq_true,
      ← Bool.not_eq_true, List.contains_iff_mem, List.contains_iff_mem] at hopen
    obtain ⟨hdeclarer, hother⟩ := Lookup.mem_of_choose? hlead
    obtain ⟨hscope, hdeclares⟩ := hfaithful.mem_declarers.1 hdeclarer
    refine ⟨hdeclares.isName, ?_, ?_⟩
    · intro hname
      rw [← hname, String.ofList_toList] at hold
      exact hold target hscope hother hdeclares
    · intro hname
      rw [← hname, String.ofList_toList] at hnew
      exact hopen.2 hnew
  · cases hlead

theorem targetsOf_meaning (view : FileView) (path : String) (imports : List Import) :
    (imports.map Import.meaning).flatMap (targetsOf view path)
      = imports.flatMap (targetsOf view path) := by
  rw [List.flatMap_map]
  rfl

theorem coveredNames_meaning (view : FileView) (path : String) (imports : List Import) :
    coveredNames view path (imports.map Import.meaning) = coveredNames view path imports := by
  rw [coveredNames, resolved, List.filter_map, List.flatMap_map]
  rfl

/-- **Files that are the same under a renaming lead to the same files**, if the renaming passes by
the search: their imports mean the same, they declare the same names, and their classes are read in
the same way. -/
theorem nextOf_eq_of_usage
    (htargets : ∀ i, targetsOf b.project.view path i = targetsOf a.project.view path i)
    (hchoose : ∀ name imports, b.lookup.choose? path name imports = a.lookup.choose? path name imports)
    (himports : o'.imports.map Import.meaning = o.imports.map Import.meaning)
    (hdeclared : ∀ name, name ∈ o'.declaredNames ↔ name ∈ o.declaredNames)
    (hclasses : o'.classes.map (·.usage r.string) = o.classes.map (·.usage r.string))
    (hspares : r.Spares Annotation.knownWords) (hpasses : r.Passes (a.leadOf path o)) :
    b.nextOf path (.ofOutline o') = a.nextOf path (.ofOutline o) := by
  have htargets : targetsOf b.project.view path = targetsOf a.project.view path := funext htargets
  have hcovered : coveredNames b.project.view path o'.imports
      = coveredNames a.project.view path o.imports := by
    rw [← coveredNames_meaning, himports, coveredNames_meaning, coveredNames, resolved, htargets]
    rfl
  have hlead : b.leadOf path o' = a.leadOf path o := by
    funext name
    have hcontains : o'.declaredNames.contains name = o.declaredNames.contains name := by
      rw [Bool.eq_iff_iff, List.contains_iff_mem, List.contains_iff_mem, hdeclared]
    rw [leadOf, hcontains, hcovered, hchoose, ← Lookup.choose?_meaning, himports,
      Lookup.choose?_meaning, leadOf]
  have himported : o'.imports.flatMap (targetsOf b.project.view path)
      = o.imports.flatMap (targetsOf a.project.view path) := by
    rw [← targetsOf_meaning, himports, targetsOf_meaning, htargets]
  rw [nextOf_eq, nextOf_eq, himported, hlead, ← Renaming.leadsBy_usage hspares hpasses o'.classes,
    hclasses, Renaming.leadsBy_usage hspares hpasses]

end ImportGraph

end Traversal

end CodeAtlas
