import CodeAtlas.Proofs.Parser.Standard
import CodeAtlas.Proofs.Syntax.Capture
import CodeAtlas.Proofs.Traversal.Run
import CodeAtlas.Proofs.Traversal.Union
import Mathlib.Data.List.Induction

/-!
# What a report holds of its files

The classes, relationships and inheritance of a report are those of its files with repetitions left
out: nothing is lost, nothing is there twice, and of several items with one key the first in the
order of the files is kept (`ImportGraph.isDigest_report`). Since every relationship of a file starts
at one of its classes, no relationship of a report dangles. An empty base counts as no base.
-/

namespace CodeAtlas

/-! ## 1. Relationships and inheritance of a file -/

namespace Relation

variable {imports : List Import} {c : ClassDecl} {r : Relation} {kind : RelationKind}

theorem source_of_mem_ofFields (h : r ∈ ofFields kind imports c) : c.name = r.source := by
  obtain ⟨p, -, hp⟩ := List.mem_filterMap.1 h
  split at hp
  · cases hp
  · split at hp
    · cases hp
      rfl
    · cases hp

theorem source_of_mem_ofMethods (h : r ∈ ofMethods imports c) : c.name = r.source := by
  obtain ⟨m, -, hm⟩ := List.mem_flatMap.1 h
  rcases List.mem_append.1 hm with hparameter | hreturn
  · obtain ⟨p, -, hp⟩ := List.mem_filterMap.1 hparameter
    obtain ⟨type, -, rfl⟩ := Option.map_eq_some_iff.1 hp
    rfl
  · obtain ⟨type, -, rfl⟩ := Option.map_eq_some_iff.1 (Option.mem_toList.1 hreturn)
    rfl

theorem source_of_mem_ofConstructor (h : r ∈ ofConstructor imports c) : c.name = r.source := by
  obtain ⟨p, -, hp⟩ := List.mem_filterMap.1 h
  obtain ⟨type, -, rfl⟩ := Option.map_eq_some_iff.1 hp
  rfl

end Relation

/-- **A relationship starts at a class of its file.** -/
theorem RelationReport.exists_class_of_mem {o : Outline} {r : Relation}
    (h : r ∈ (RelationReport.ofOutline o).relations) : ∃ c ∈ o.classes, c.name = r.source := by
  have hsource : ∀ {relationsOf : ClassDecl → List Relation},
      (∀ c, r ∈ relationsOf c → c.name = r.source) → r ∈ o.classes.flatMap relationsOf →
        ∃ c ∈ o.classes, c.name = r.source := fun hstart hr =>
    let ⟨c, hc, hr⟩ := List.mem_flatMap.1 hr
    ⟨c, hc, hstart c hr⟩
  simp only [RelationReport.relations, RelationReport.ofOutline, List.mem_append] at h
  rcases h with (((h | h) | h) | h) | h
  · exact hsource (fun _ => Relation.source_of_mem_ofFields) h
  · exact hsource (fun _ => Relation.source_of_mem_ofFields) h
  · exact hsource (fun _ => Relation.source_of_mem_ofMethods) h
  · exact hsource (fun _ => Relation.source_of_mem_ofFields) h
  · exact hsource (fun _ => Relation.source_of_mem_ofConstructor) h

namespace Inheritance

variable {classes : List ClassDecl} {c : ClassDecl} {base sub : String}

theorem ofClasses_concat_of_none (h : c.base = none) :
    ofClasses (classes ++ [c]) = ofClasses classes := by
  simp [ofClasses, h]

theorem ofClasses_concat_of_some (h : c.base = some base) :
    ofClasses (classes ++ [c])
      = if base.isEmpty then ofClasses classes else (ofClasses classes).insert base c.name := by
  simp [ofClasses, h]

/-- **The pairs of some classes**: every class with a base that has a name. -/
theorem mem_pairs_ofClasses : (base, sub) ∈ (ofClasses classes).pairs ↔
    base ≠ "" ∧ ∃ c ∈ classes, c.base = some base ∧ c.name = sub := by
  induction classes using List.reverseRecOn with
  | nil => simp [ofClasses, pairs]
  | append_singleton classes c ih =>
    have hlast : (∃ d ∈ classes ++ [c], d.base = some base ∧ d.name = sub) ↔
        (∃ d ∈ classes, d.base = some base ∧ d.name = sub) ∨ c.base = some base ∧ c.name = sub := by
      simp only [List.mem_append, List.mem_singleton, or_and_right, exists_or, exists_eq_left]
    rw [hlast, and_or_left, ← ih]
    cases hbase : c.base with
    | none =>
      rw [ofClasses_concat_of_none hbase]
      simp
    | some b =>
      rw [ofClasses_concat_of_some hbase]
      by_cases hempty : b = ""
      · rw [if_pos (String.isEmpty_iff.2 hempty), hempty]
        refine (or_iff_left ?_).symm
        rintro ⟨hne, hb, -⟩
        exact hne (Option.some.inj hb).symm
      · rw [if_neg (mt String.isEmpty_iff.1 hempty), mem_pairs_insert, Prod.mk.injEq,
          Option.some_inj]
        refine or_congr_right ⟨?_, ?_⟩
        · rintro ⟨rfl, rfl⟩
          exact ⟨hempty, rfl, rfl⟩
        · rintro ⟨-, rfl, rfl⟩
          exact ⟨rfl, rfl⟩

end Inheritance

namespace Traversal

/-! ## 2. Digests -/

/-- **A list is the digest of another by a key**: it holds, in the order of the other, the first item
of every key, and nothing else. -/
structure IsDigest {α κ : Type} [BEq κ] (key : α → κ) (items kept : List α) : Prop where
  sublist : kept.Sublist items
  nodup_keys : (kept.map key).Nodup
  exists_first : ∀ a ∈ items, ∃ b ∈ kept, key b = key a
  first : ∀ b ∈ kept, items.find? (fun a => key a == key b) = some b

theorem isDigest_firstByKey {α κ : Type} [BEq κ] [LawfulBEq κ] (key : α → κ) (items : List α) :
    IsDigest key items (firstByKey key items) where
  sublist := firstByKey_sublist key items
  nodup_keys := nodup_keys_firstByKey key items
  exists_first _ h := exists_mem_firstByKey key h
  first _ h := mem_firstByKey_iff.1 h

/-- Classes that have the path of their file are told apart by their own keys. -/
theorem mergedClasses_eq {files : List FileReport}
    (h : ∀ f ∈ files, ∀ c ∈ f.classes, c.path = f.path) :
    mergedClasses files = firstByKey ClassDecl.key (files.flatMap (·.classes)) := by
  have hkeyed : keyedClasses files = (files.flatMap (·.classes)).map fun c => (c.key, c) := by
    rw [keyedClasses, List.map_flatMap]
    refine List.flatMap_congr fun f hf => List.map_congr_left fun c hc => ?_
    rw [classKey_of_path (h f hf c hc)]
  rw [mergedClasses, ← keyedClasses, hkeyed, firstByKey_map, List.map_map]
  exact List.map_id _

/-! ## 3. Reports -/

/-- **A report is the digest of its files.** Its relationships and inheritance do not dangle, and its
totals are true. -/
structure Report.IsDigest (report : Report) : Prop where
  nodup_paths : report.paths.Nodup
  classes : Traversal.IsDigest ClassDecl.key (report.files.flatMap (·.classes)) report.classes
  relations : Traversal.IsDigest Relation.key (report.files.flatMap (·.relations)) report.relations
  inheritance : Inheritance.IsSimple report.inheritance
  mem_inheritance_iff : ∀ base sub, (Inheritance.pairs report.inheritance).count (base, sub) = 1 ↔
    base ≠ "" ∧ ∃ f ∈ report.files, ∃ c ∈ f.classes, c.base = some base ∧ c.name = sub
  source_mem : ∀ r ∈ report.relations, ∃ c ∈ report.classes, c.name = r.source
  sub_mem : ∀ pair ∈ Inheritance.pairs report.inheritance, ∃ c ∈ report.classes, c.name = pair.2
  total_files : report.totals.files = report.files.length
  total_classes : report.totals.classes = report.classes.length
  total_relations : report.totals.relations = report.relations.length

namespace ImportGraph

variable {graph : ImportGraph} {entry : String} {mode : Mode} {depth : Nat}

/-- What is reported of a file is what loading it gives. -/
theorem exists_load_of_mem_files {f : FileReport}
    (h : f ∈ (graph.report entry mode depth).files) :
    ∃ file, graph.project.load f.path = .ok file ∧ f.imports = file.outline.imports ∧
      f.classes = file.outline.classes ∧ f.relations = file.report.relations ∧
      f.inheritance = file.report.inheritance := by
  obtain ⟨file, hload, hreport⟩ := exists_load_of_fileReport? (fileReport?_of_mem_files h)
  refine ⟨file, hload, ?_⟩
  rw [hreport]
  exact ⟨rfl, rfl, rfl, rfl⟩

/-- What is reported of a file is what its outline tells. -/
theorem exists_outline_of_mem_files {f : FileReport}
    (h : f ∈ (graph.report entry mode depth).files) :
    ∃ o : Outline, f.classes = o.classes ∧
      f.relations = (RelationReport.ofOutline o).relations ∧
      f.inheritance = Inheritance.ofClasses o.classes := by
  obtain ⟨file, hload, -, hclasses, hrelations, hinheritance⟩ := exists_load_of_mem_files h
  obtain ⟨text, o, -, -, rfl⟩ := exists_of_load hload
  exact ⟨o, hclasses, hrelations, hinheritance⟩

theorem classes_report (graph : ImportGraph) (entry : String) (mode : Mode) (depth : Nat) :
    (graph.report entry mode depth).classes
      = firstByKey ClassDecl.key ((graph.report entry mode depth).files.flatMap (·.classes)) :=
  mergedClasses_eq fun _ hf _ hc => path_of_mem_classes_fileReport? (fileReport?_of_mem_files hf) hc

/-- A class of a file has its name in the report. -/
theorem exists_class_of_mem_files {f : FileReport}
    (hf : f ∈ (graph.report entry mode depth).files) {c : ClassDecl} (hc : c ∈ f.classes) :
    ∃ d ∈ (graph.report entry mode depth).classes, d.name = c.name := by
  rw [classes_report]
  obtain ⟨d, hd, hkey⟩ := exists_mem_firstByKey ClassDecl.key (List.mem_flatMap.2 ⟨f, hf, hc⟩)
  exact ⟨d, hd, congrArg Prod.snd hkey⟩

theorem mem_inheritance_report {base sub : String} :
    (base, sub) ∈ Inheritance.pairs (graph.report entry mode depth).inheritance ↔
      base ≠ "" ∧ ∃ f ∈ (graph.report entry mode depth).files,
        ∃ c ∈ f.classes, c.base = some base ∧ c.name = sub := by
  have hmerged : (graph.report entry mode depth).inheritance
      = mergedInheritance (graph.report entry mode depth).files := rfl
  rw [hmerged, mem_pairs_mergedInheritance]
  constructor
  · rintro ⟨f, hf, hpair⟩
    obtain ⟨o, hclasses, -, hinheritance⟩ := exists_outline_of_mem_files hf
    rw [hinheritance, Inheritance.mem_pairs_ofClasses, ← hclasses] at hpair
    exact ⟨hpair.1, f, hf, hpair.2⟩
  · rintro ⟨hne, f, hf, hclass⟩
    obtain ⟨o, hclasses, -, hinheritance⟩ := exists_outline_of_mem_files hf
    rw [hclasses] at hclass
    refine ⟨f, hf, ?_⟩
    rw [hinheritance, Inheritance.mem_pairs_ofClasses]
    exact ⟨hne, hclass⟩

/-- **Every report is the digest of its files.** -/
theorem isDigest_report (graph : ImportGraph) (entry : String) (mode : Mode) (depth : Nat) :
    (graph.report entry mode depth).IsDigest where
  nodup_paths := nodup_paths graph entry mode depth
  classes := by
    rw [classes_report]
    exact isDigest_firstByKey _ _
  relations := isDigest_firstByKey _ _
  inheritance := isSimple_mergedInheritance _
  mem_inheritance_iff base sub := by
    have hnodup : (Inheritance.pairs (graph.report entry mode depth).inheritance).Nodup :=
      (isSimple_mergedInheritance _).nodup_pairs
    rw [hnodup.count, ← mem_inheritance_report]
    simp
  source_mem r hr := by
    obtain ⟨f, hf, hmem⟩ := List.mem_flatMap.1 (mem_of_mem_firstByKey hr)
    obtain ⟨o, hclasses, hrelations, -⟩ := exists_outline_of_mem_files hf
    rw [hrelations] at hmem
    obtain ⟨c, hc, hname⟩ := RelationReport.exists_class_of_mem hmem
    rw [← hname]
    exact exists_class_of_mem_files hf (hclasses ▸ hc)
  sub_mem := by
    rintro ⟨base, sub⟩ hpair
    obtain ⟨-, f, hf, c, hc, -, rfl⟩ := mem_inheritance_report.1 hpair
    exact exists_class_of_mem_files hf hc
  total_files := rfl
  total_classes := rfl
  total_relations := rfl

end ImportGraph

/-! ## 4. Runs -/

namespace Session

/-- A run that succeeds answers with a report of its graph. -/
theorem exists_report_of_analyze {session : Session} {project : Project} {request : Request}
    {report : Report} (h : (session.analyze project request).outcome = .ok report) :
    ∃ r, request.check project.view = .ok r ∧
      report = (session.graph project).report r.entry r.mode r.depth := by
  cases hcheck : request.check project.view with
  | error e =>
    rw [outcome_analyze_of_refused hcheck] at h
    cases h
  | ok r =>
    obtain ⟨-, -, houtcome⟩ := analyze_of_check session hcheck
    rw [houtcome] at h
    split at h
    · cases h
    · cases h
      exact ⟨r, rfl, rfl⟩

/-- **Nothing is lost, nothing is there twice, and nothing dangles** in what a traversal answers. -/
theorem isDigest_analyze {session : Session} {project : Project} {request : Request}
    {report : Report} (h : (session.analyze project request).outcome = .ok report) :
    report.IsDigest := by
  obtain ⟨r, -, rfl⟩ := exists_report_of_analyze h
  exact ImportGraph.isDigest_report _ _ _ _

theorem isDigest_analyze_mutualImports :
    (Session.analyze {} mutualImports (.of "/a.ts" .bidirectional 3)).outcome
        = .ok ((Session.graph {} mutualImports).report "/a.ts" .bidirectional 3) ∧
      ((Session.graph {} mutualImports).report "/a.ts" .bidirectional 3).IsDigest := by
  have hcontains : mutualImports.view.contains (mutualImports.view.canonical "/a.ts") = true := by
    decide +kernel
  have hcanonical : mutualImports.view.canonical "/a.ts" = "/a.ts" := by decide +kernel
  obtain ⟨found, hfound⟩ : ∃ found, Discovery.run mutualImports.view {} = .ok found :=
    Discovery.exists_run_memory _
  have houtcome : (Session.analyze {} mutualImports (.of "/a.ts" .bidirectional 3)).outcome
      = .ok ((Session.graph {} mutualImports).report "/a.ts" .bidirectional 3) := by
    rw [outcome_analyze_of_found hcontains hfound, hcanonical]
  exact ⟨houtcome, isDigest_analyze houtcome⟩

end Session

/-! ## 5. A class with an empty base -/

/-- A class that has a comment in front of its base. -/
def commentedText : String := "class C extends /*.<*/ B \x7b\x7d"

/-- The class of `commentedText` as the grammar engine gives it. The comment stands first in the
clause and so is taken for the base; nothing is left of it between `.` and `<`. -/
def commentedClass : Syntax.Node :=
  let rule := (Syntax.Source.ofString commentedText).rule
  let token := (Syntax.Source.ofString commentedText).token
  rule 1 "class_declaration" none 0 27
    [token 2 "class" 0 5, rule 3 "identifier" (some "name") 6 7 [],
      rule 4 "superclass" (some "superclass") 8 24
        [token 5 "extends" 8 15, rule 6 "block_comment" none 16 22 [],
          rule 7 "type_identifier" none 23 24 []],
      rule 8 "class_body" (some "body") 25 27 [token 9 "\x7b" 25 26, token 10 "\x7d" 26 27]]

/-- The class of `commentedText` in a file of its own. -/
def commentedBase : Project :=
  { view := (MemoryStore.ofFiles "/" [("/C.java", commentedText)]).view
    grammar := fun _ text =>
      (Syntax.Source.ofString text).rule 0 "program" none 0 27 [commentedClass] }

theorem load_commentedBase :
    ∃ file, commentedBase.load "/C.java" = .ok file ∧
      ∃ c ∈ file.outline.classes, c.base = some "" ∧ c.name = "C" := by
  have hdeclared : ∃ c ∈ (Outline.Java.declared "/C.java" commentedClass).classes,
      c.base = some "" ∧ c.name = "C" := by
    rw [Outline.Java.declared]
    decide +kernel
  obtain ⟨c, hc, hbase, hname⟩ := hdeclared
  have hclasses : (Outline.Java.outline "/C.java"
      (commentedBase.grammar "/C.java" commentedText)).classes
        = (Outline.Java.declared "/C.java" commentedClass).classes := by
    change (Declared.concat ([commentedClass].map (Outline.Java.declared "/C.java"))).classes = _
    rw [Declared.classes_concat, List.map_cons, List.map_nil, List.flatMap_singleton]
  rw [← hclasses] at hc
  obtain ⟨file, hload⟩ : ∃ file, commentedBase.load "/C.java" = .ok file :=
    Outcome.exists_of_isSome_toOption (by decide +kernel)
  refine ⟨file, hload, c, ?_, hbase, hname⟩
  obtain ⟨text, outline, hread, houtline, rfl⟩ := exists_of_load hload
  have htext : commentedBase.view.read "/C.java" = .ok commentedText := rfl
  cases htext.symm.trans hread
  have hlanguage : Language.ofFile "/C.java" = .ok (some .java) := rfl
  rw [LoadedFile.ofOutline, Outline.eq_ofSoundTree hlanguage houtline]
  exact hc

namespace Session

/-- **An empty base is no base.** The class `C` is listed with the base that was read, yet the
inheritance does not tell of it. -/
theorem not_inherits_commentedBase :
    ∃ report, (Session.analyze {} commentedBase (.of "/C.java" .forward 1)).outcome = .ok report ∧
      (∃ f ∈ report.files, ∃ c ∈ f.classes, c.base = some "" ∧ c.name = "C") ∧
      (Inheritance.pairs report.inheritance).count ("", "C") = 0 := by
  have hcontains : commentedBase.view.contains (commentedBase.view.canonical "/C.java") = true := by
    decide +kernel
  have hcanonical : commentedBase.view.canonical "/C.java" = "/C.java" := by decide +kernel
  obtain ⟨found, hfound⟩ : ∃ found, Discovery.run commentedBase.view {} = .ok found :=
    Discovery.exists_run_memory _
  obtain ⟨file, hload, c, hc, hbase, hname⟩ := load_commentedBase
  refine ⟨_, outcome_analyze_of_found hcontains hfound .forward 1, ?_, ?_⟩
  · rw [hcanonical]
    have hloadable : (Session.graph {} commentedBase).project.isLoadable "/C.java" = true :=
      ImportGraph.isLoadable_iff.2 ⟨file, hload⟩
    obtain ⟨f, hf, hpath, -⟩ :=
      ImportGraph.lists_forward.2 ⟨hloadable, Nat.zero_le 1, IsDistance.self "/C.java"⟩
    have hreport := ImportGraph.fileReport?_of_mem_files hf
    unfold ImportGraph.fileReport? at hreport
    rw [show f.placement.path = "/C.java" from hpath,
      show (Session.graph {} commentedBase).project.load "/C.java" = .ok file from hload] at hreport
    refine ⟨f, hf, c, ?_, hbase, hname⟩
    rw [← Option.some.inj hreport]
    exact hc
  · rw [List.count_eq_zero, ImportGraph.mem_inheritance_report]
    exact fun h => h.1 rfl

end Session

end Traversal

end CodeAtlas
