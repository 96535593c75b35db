import CodeAtlas.Proofs.Dedup
import CodeAtlas.Traversal.Report

/-!
# What the files of a report merge to

The classes, relationships and inheritance of a report are those of its files: a key is there
exactly if a file has it, whatever the order of the files. For inheritance the keys are the pairs of
a base and a subclass, and one insertion adds one pair (`Inheritance.mem_pairs_insert`).
-/

namespace CodeAtlas

/-! ## 1. Inheritance -/

namespace Inheritance

theorem mem_insertName {name other : String} {names : List String} :
    other ∈ insertName name names ↔ other ∈ names ∨ other = name := by
  unfold insertName
  split
  · rename_i hmem
    rw [List.contains_iff_mem] at hmem
    constructor
    · exact Or.inl
    · rintro (hother | rfl)
      · exact hother
      · exact hmem
  · rw [List.mem_append, List.mem_singleton]

/-- Names are added as long as they are new. -/
theorem foldl_insertName (before items : List String) :
    items.foldl (fun names name => insertName name names) before.eraseDups
      = (before ++ items).eraseDups := by
  induction items generalizing before with
  | nil => rw [List.foldl_nil, List.append_nil]
  | cons name items ih =>
    have hstep : insertName name before.eraseDups = (before ++ [name]).eraseDups := by
      unfold insertName
      by_cases hmem : name ∈ before
      · rw [if_pos (List.contains_iff_mem.2 (List.mem_eraseDups.2 hmem)),
          Traversal.eraseDups_concat_of_mem hmem]
      · rw [if_neg fun hcontains =>
            hmem (List.mem_eraseDups.1 (List.contains_iff_mem.1 hcontains)),
          Traversal.eraseDups_concat_of_notMem hmem]
    rw [List.foldl_cons, hstep, ih, List.append_cons before name items]

theorem mem_pairs_cons {base : String} {subs : List String} {rest : Inheritance}
    {pair : String × String} :
    pair ∈ pairs ((base, subs) :: rest) ↔ (pair.1 = base ∧ pair.2 ∈ subs) ∨ pair ∈ pairs rest := by
  have hcons : pairs ((base, subs) :: rest) = (subs.map fun sub => (base, sub)) ++ pairs rest := rfl
  rw [hcons, List.mem_append, List.mem_map]
  constructor
  · rintro (⟨sub, hsub, rfl⟩ | hrest)
    · exact Or.inl ⟨rfl, hsub⟩
    · exact Or.inr hrest
  · rintro (⟨hbase, hsub⟩ | hrest)
    · exact Or.inl ⟨pair.2, hsub, Prod.ext hbase.symm rfl⟩
    · exact Or.inr hrest

/-- **One insertion adds one pair.** -/
theorem mem_pairs_insert {base sub : String} {map : Inheritance} {pair : String × String} :
    pair ∈ pairs (insert base sub map) ↔ pair ∈ pairs map ∨ pair = (base, sub) := by
  induction map with
  | nil =>
    rw [insert, mem_pairs_cons, List.mem_singleton, Prod.ext_iff]
    exact or_comm
  | cons entry rest ih =>
    obtain ⟨b, subs⟩ := entry
    rw [insert]
    split
    · rename_i hbase
      rw [eq_of_beq hbase, mem_pairs_cons, mem_pairs_cons, mem_insertName, Prod.ext_iff]
      tauto
    · rw [mem_pairs_cons, mem_pairs_cons, ih, or_assoc]

theorem mem_pairs_foldl {more : List (String × String)} {map : Inheritance}
    {pair : String × String} :
    pair ∈ pairs (more.foldl (fun map (base, sub) => map.insert base sub) map) ↔
      pair ∈ pairs map ∨ pair ∈ more := by
  induction more generalizing map with
  | nil => rw [List.foldl_nil, or_iff_left List.not_mem_nil]
  | cons entry more ih =>
    obtain ⟨base, sub⟩ := entry
    rw [List.foldl_cons, ih, mem_pairs_insert, List.mem_cons, or_assoc]

theorem mem_pairs_merge {map other : Inheritance} {pair : String × String} :
    pair ∈ pairs (map.merge other) ↔ pair ∈ pairs map ∨ pair ∈ pairs other :=
  mem_pairs_foldl

/-- **Nothing is there twice**: neither a base, nor a subclass of one base. -/
structure IsSimple (map : Inheritance) : Prop where
  nodup_bases : (map.map (·.1)).Nodup
  nodup_subs : ∀ entry ∈ map, entry.2.Nodup

theorem isSimple_nil : IsSimple [] where
  nodup_bases := List.nodup_nil
  nodup_subs _ h := absurd h List.not_mem_nil

theorem nodup_insertName {name : String} {names : List String} (h : names.Nodup) :
    (insertName name names).Nodup := by
  unfold insertName
  split
  · exact h
  · rename_i hnew
    rw [List.contains_iff_mem] at hnew
    exact List.nodup_append.2 ⟨h, List.nodup_singleton name, fun a ha b hb hab =>
      hnew (List.mem_singleton.1 hb ▸ hab ▸ ha)⟩

theorem mem_bases_insert {base sub other : String} {map : Inheritance}
    (h : other ∈ (insert base sub map).map (·.1)) : other = base ∨ other ∈ map.map (·.1) := by
  induction map with
  | nil => exact Or.inl (List.mem_singleton.1 h)
  | cons entry rest ih =>
    obtain ⟨b, subs⟩ := entry
    rw [insert] at h
    split at h
    · exact Or.inr h
    · rcases List.mem_cons.1 h with rfl | h
      · exact Or.inr List.mem_cons_self
      · exact (ih h).imp_right (List.mem_cons_of_mem b)

/-- **One insertion puts nothing there twice.** -/
theorem IsSimple.insert {map : Inheritance} (h : map.IsSimple) (base sub : String) :
    (map.insert base sub).IsSimple := by
  induction map with
  | nil =>
    refine ⟨List.nodup_singleton base, fun entry hentry => ?_⟩
    rw [List.mem_singleton.1 hentry]
    exact List.nodup_singleton sub
  | cons entry rest ih =>
    obtain ⟨b, subs⟩ := entry
    have hbases := List.nodup_cons.1 h.nodup_bases
    have hsubs := List.forall_mem_cons.1 h.nodup_subs
    rw [Inheritance.insert]
    split
    · exact ⟨h.nodup_bases, List.forall_mem_cons.2 ⟨nodup_insertName hsubs.1, hsubs.2⟩⟩
    · rename_i hbase
      have hrest := ih ⟨hbases.2, hsubs.2⟩
      refine ⟨List.nodup_cons.2 ⟨fun hmem => ?_, hrest.nodup_bases⟩,
        List.forall_mem_cons.2 ⟨hsubs.1, hrest.nodup_subs⟩⟩
      rcases mem_bases_insert hmem with hb | hmem
      · exact hbase (beq_iff_eq.2 hb)
      · exact hbases.1 hmem

theorem IsSimple.merge {map : Inheritance} (h : map.IsSimple) (other : Inheritance) :
    (map.merge other).IsSimple := by
  have hfold : ∀ more : List (String × String), ∀ map : Inheritance, map.IsSimple →
      (more.foldl (fun map (base, sub) => map.insert base sub) map).IsSimple := by
    intro more
    induction more with
    | nil => exact fun _ h => h
    | cons pair more ih => exact fun _ h => ih _ (h.insert pair.1 pair.2)
  exact hfold other.pairs map h

/-- Such a map holds no pair twice. -/
theorem IsSimple.nodup_pairs {map : Inheritance} (h : map.IsSimple) : map.pairs.Nodup := by
  induction map with
  | nil => exact List.nodup_nil
  | cons entry rest ih =>
    obtain ⟨b, subs⟩ := entry
    have hbases := List.nodup_cons.1 h.nodup_bases
    have hsubs := List.forall_mem_cons.1 h.nodup_subs
    have hcons : pairs ((b, subs) :: rest) = (subs.map fun sub => (b, sub)) ++ pairs rest := rfl
    rw [hcons, List.nodup_append]
    refine ⟨hsubs.1.map fun _ _ hsub => congrArg Prod.snd hsub, ih ⟨hbases.2, hsubs.2⟩, ?_⟩
    -- the pairs of this base and those of the others differ in the base
    rintro pair hpair other hother rfl
    obtain ⟨sub, -, rfl⟩ := List.mem_map.1 hpair
    obtain ⟨entry, hentry, hmem⟩ := List.mem_flatMap.1 hother
    obtain ⟨_, -, heq⟩ := List.mem_map.1 hmem
    exact hbases.1 (List.mem_map.2 ⟨entry, hentry, (Prod.mk.inj heq).1⟩)

end Inheritance

namespace Traversal

variable {files : List FileReport}

theorem mem_pairs_foldl_merge {map : Inheritance} {pair : String × String} :
    pair ∈ (files.foldl (fun map f => map.merge f.inheritance) map).pairs ↔
      pair ∈ map.pairs ∨ ∃ f ∈ files, pair ∈ f.inheritance.pairs := by
  induction files generalizing map with
  | nil => simp
  | cons f files ih =>
    rw [List.foldl_cons, ih, Inheritance.mem_pairs_merge, List.exists_mem_cons_iff, or_assoc]

/-- **The pairs of the merged inheritance are those of the files.** -/
theorem mem_pairs_mergedInheritance {pair : String × String} :
    pair ∈ (mergedInheritance files).pairs ↔ ∃ f ∈ files, pair ∈ f.inheritance.pairs := by
  have hnone : pair ∉ Inheritance.pairs [] := List.not_mem_nil
  rw [mergedInheritance, mem_pairs_foldl_merge, or_iff_right hnone]

theorem isSimple_mergedInheritance (files : List FileReport) :
    (mergedInheritance files).IsSimple := by
  have hfold : ∀ map : Inheritance, map.IsSimple →
      (files.foldl (fun map f => map.merge f.inheritance) map).IsSimple := by
    induction files with
    | nil => exact fun _ h => h
    | cons f files ih => exact fun _ h => ih _ (h.merge f.inheritance)
  exact hfold [] Inheritance.isSimple_nil

/-! ## 2. Relationships and classes -/

/-- **The keys of the merged relationships are those of the files.** -/
theorem mem_keys_mergedRelations {key : String × String × RelationKind × String} :
    key ∈ (mergedRelations files).map Relation.key ↔
      ∃ f ∈ files, key ∈ f.relations.map Relation.key := by
  rw [mergedRelations, mem_map_firstByKey, List.map_flatMap, List.mem_flatMap]

/-- A class that has the path of its file is told apart by its own key. -/
theorem classKey_of_path {path : String} {c : ClassDecl} (h : c.path = path) :
    classKey path c = c.key := by
  unfold classKey ClassDecl.key
  rw [h, ite_self]

/-- The classes of some files with their keys. -/
def keyedClasses (files : List FileReport) : List ((String × String) × ClassDecl) :=
  files.flatMap fun f => f.classes.map fun c => (classKey f.path c, c)

/-- The keys of the merged classes, if the classes of the files have their paths. -/
theorem map_key_mergedClasses (h : ∀ f ∈ files, ∀ c ∈ f.classes, c.path = f.path) :
    (mergedClasses files).map ClassDecl.key
      = (firstByKey (·.1) (keyedClasses files)).map (·.1) := by
  have hkeyed : ∀ item ∈ firstByKey (·.1) (keyedClasses files), item.2.key = item.1 := by
    intro item hitem
    obtain ⟨f, hf, hmem⟩ := List.mem_flatMap.1 (mem_of_mem_firstByKey hitem)
    obtain ⟨c, hc, rfl⟩ := List.mem_map.1 hmem
    exact (classKey_of_path (h f hf c hc)).symm
  rw [mergedClasses, List.map_map]
  exact List.map_congr_left hkeyed

/-- **The keys of the merged classes are those of the files**, if their classes have their
paths. -/
theorem mem_keys_mergedClasses (h : ∀ f ∈ files, ∀ c ∈ f.classes, c.path = f.path)
    {key : String × String} :
    key ∈ (mergedClasses files).map ClassDecl.key ↔
      ∃ f ∈ files, key ∈ f.classes.map ClassDecl.key := by
  rw [map_key_mergedClasses h, mem_map_firstByKey, keyedClasses, List.map_flatMap,
    List.mem_flatMap]
  refine exists_congr fun f => and_congr_right fun hf => ?_
  have hfile : (f.classes.map fun c => (classKey f.path c, c)).map (·.1)
      = f.classes.map ClassDecl.key := by
    rw [List.map_map]
    exact List.map_congr_left fun c hc => classKey_of_path (h f hf c hc)
  rw [hfile]

/-! ## 3. More files, and files in another order -/

variable {more : List FileReport}

/-- **More files at the end leave what the first ones merge to as it is.** -/
theorem prefix_mergedClasses (h : files <+: more) : mergedClasses files <+: mergedClasses more := by
  obtain ⟨rest, rfl⟩ := h
  have hkeyed : keyedClasses files <+: keyedClasses (files ++ rest) := by
    rw [keyedClasses, keyedClasses, List.flatMap_append]
    exact List.prefix_append _ _
  exact (prefix_firstByKey _ hkeyed).map _

theorem prefix_mergedRelations (h : files <+: more) :
    mergedRelations files <+: mergedRelations more := by
  obtain ⟨rest, rfl⟩ := h
  rw [mergedRelations, mergedRelations, List.flatMap_append]
  exact prefix_firstByKey _ (List.prefix_append _ _)

/-- The same files in another order merge to the same keys. -/
theorem perm_keys_mergedClasses (h : files.Perm more)
    (hpath : ∀ f ∈ more, ∀ c ∈ f.classes, c.path = f.path) :
    ((mergedClasses files).map ClassDecl.key).Perm ((mergedClasses more).map ClassDecl.key) := by
  rw [map_key_mergedClasses hpath,
    map_key_mergedClasses fun f hf c hc => hpath f (h.subset hf) c hc]
  exact perm_keys_firstByKey _ (h.flatMap_right _)

theorem perm_keys_mergedRelations (h : files.Perm more) :
    ((mergedRelations files).map Relation.key).Perm ((mergedRelations more).map Relation.key) :=
  perm_keys_firstByKey _ (h.flatMap_right _)

end Traversal

end CodeAtlas
