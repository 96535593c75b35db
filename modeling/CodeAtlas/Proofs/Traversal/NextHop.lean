import CodeAtlas.Proofs.Traversal.Search
import CodeAtlas.Proofs.Traversal.Supplied

/-!
# Which files a file leads to

A loaded file leads to the files that its imports mean and then, for every class name that it
refers to and neither declares nor imports, to one of the other files that declare the name
(`IsNextHop`). Which one is said by preferences (`Preferred`): the earliest in the directory of the
file, else the earliest that the first module hints at which hints at any, else the earliest of all.
The preferences are stated on the files and modules themselves; that the lookup follows them is
`Lookup.preferred_of_choose?`, and that it finds a file wherever there is one is
`Lookup.isSome_choose?_iff`.
-/

namespace CodeAtlas

/-! ## 1. The earliest with a property -/

section Earliest

variable {α : Type} {p : α → Prop} {items more : List α} {a : α}

/-- **The earliest of some items with a property.** -/
def IsEarliest (p : α → Prop) (items : List α) (a : α) : Prop :=
  ∃ before after, items = before ++ a :: after ∧ p a ∧ ∀ b ∈ before, ¬ p b

theorem IsEarliest.holds (h : IsEarliest p items a) : p a := by
  obtain ⟨-, -, -, ha, -⟩ := h
  exact ha

theorem IsEarliest.mem (h : IsEarliest p items a) : a ∈ items := by
  obtain ⟨before, after, rfl, -, -⟩ := h
  exact List.mem_append_right _ List.mem_cons_self

/-- There is only one. -/
theorem IsEarliest.unique {b : α} (ha : IsEarliest p items a) (hb : IsEarliest p items b) :
    a = b := by
  obtain ⟨before, after, rfl, hpa, hbefore⟩ := ha
  obtain ⟨before', after', hsplit, hpb, hbefore'⟩ := hb
  rcases List.append_eq_append_iff.1 hsplit with ⟨middle, rfl, hmiddle⟩ | ⟨middle, rfl, hmiddle⟩ <;>
    cases middle
  · exact (List.cons.inj hmiddle).1
  · cases hmiddle
    exact absurd hpa (hbefore' a (List.mem_append_right _ List.mem_cons_self))
  · exact (List.cons.inj hmiddle).1.symm
  · cases hmiddle
    exact absurd hpb (hbefore b (List.mem_append_right _ List.mem_cons_self))

theorem isEarliest_of_find? {p : α → Bool} (h : items.find? p = some a) :
    IsEarliest (p · = true) items a := by
  obtain ⟨ha, before, after, hitems, hbefore⟩ := List.find?_eq_some_iff_append.1 h
  refine ⟨before, after, hitems, ha, fun b hb => ?_⟩
  rw [Bool.not_eq_true, ← Bool.not_eq_true']
  exact hbefore b hb

theorem IsEarliest.congr {q : α → Prop} (h : IsEarliest p items a)
    (hpq : ∀ b ∈ items, p b ↔ q b) : IsEarliest q items a := by
  obtain ⟨before, after, rfl, ha, hbefore⟩ := h
  refine ⟨before, after, rfl, (hpq a ?_).1 ha, fun b hb hq => hbefore b hb ((hpq b ?_).2 hq)⟩
  · exact List.mem_append_right _ List.mem_cons_self
  · exact List.mem_append_left _ hb

/-- Items that stand in front already need not be looked at again. -/
theorem IsEarliest.of_filter [BEq α] [LawfulBEq α] (hitems : ∀ b ∈ items, ¬ p b)
    (h : IsEarliest p (more.filter (!items.contains ·)) a) : IsEarliest p (items ++ more) a := by
  obtain ⟨before, after, hmore, ha, hbefore⟩ := h
  obtain ⟨front, rest, rfl, hfront, hrest⟩ := List.filter_eq_append_iff.1 hmore
  obtain ⟨skipped, after', rfl, hskipped, -, -⟩ := List.filter_eq_cons_iff.1 hrest
  refine ⟨items ++ (front ++ skipped), after', by simp, ha, fun b hb hpb => ?_⟩
  by_cases hmem : b ∈ items
  · exact hitems b hmem hpb
  -- an item that does not stand in front is kept, and comes before the one found
  · have hkept : (!items.contains b) = true := by simpa using hmem
    rcases List.mem_append.1 ((List.mem_append.1 hb).resolve_left hmem) with hb | hb
    · exact hbefore b (hfront ▸ List.mem_filter.2 ⟨hb, hkept⟩) hpb
    · exact hskipped b hb hkept

theorem IsEarliest.of_append_filter [BEq α] [LawfulBEq α]
    (h : IsEarliest p (items ++ more.filter (!items.contains ·)) a) :
    IsEarliest p (items ++ more) a := by
  obtain ⟨before, after, hsplit, ha, hbefore⟩ := h
  rcases List.append_eq_append_iff.1 hsplit with ⟨middle, rfl, hmore⟩ | ⟨middle, rfl, hafter⟩
  · refine .of_filter (fun b hb => hbefore b (List.mem_append_left _ hb)) ?_
    exact ⟨middle, after, hmore, ha, fun b hb => hbefore b (List.mem_append_right _ hb)⟩
  · cases middle with
    | nil =>
      refine .of_filter (by rwa [List.append_nil]) ?_
      exact ⟨[], after, hafter.symm, ha, fun b hb => absurd hb List.not_mem_nil⟩
    | cons b middle =>
      cases hafter
      exact ⟨before, middle ++ more, by simp, ha, hbefore⟩

end Earliest

/-! ## 2. The modules that a name may come from -/

section Modules

variable {i : Import} {imports : List Import} {name : String}

/-- An import names a name: it is one of those imported, or the one that the module is given. -/
def Import.Carries (i : Import) (name : String) : Prop :=
  name ∈ i.specifiers ∨ i.asName = some name

/-- An import brings in every name of its module, and the module under none. -/
def Import.IsWildcard (i : Import) : Prop :=
  i.isNamespace = true ∧ i.asName.getD "" = ""

instance (i : Import) (name : String) : Decidable (i.Carries name) :=
  inferInstanceAs (Decidable (_ ∨ _))

instance (i : Import) : Decidable i.IsWildcard :=
  inferInstanceAs (Decidable (_ ∧ _))

/-- **The modules that a name may come from**: those of the imports that name it, then those whose
names are all brought in. -/
def modulesFor (name : String) (imports : List Import) : List String :=
  (imports.filter fun i => i.Carries name).map (·.source) ++
    (imports.filter fun i => i.IsWildcard).map (·.source)

/-- A path ends with another, as segments. -/
def EndsWith (path ending : String) : Prop :=
  path = ending ∨ ∃ front, path = front ++ "/" ++ ending

/-- **A module suggests a file**: what its specifier hints at, if it hints at anything, is how the
file or the directory that it stands for ends. -/
def Suggests (module file : String) : Prop :=
  Specifier.hint module ≠ "" ∧
    (EndsWith (Path.splitExtension file).1 (Specifier.hint module) ∨
      EndsWith (Path.dirname (Path.splitExtension file).1) (Specifier.hint module))

/-- **Of the files that declare a name the one preferred** in a file that may have it from some
modules: the earliest in the same directory; else, of those that a module suggests, the earliest
for the first module that suggests any; else the earliest. -/
inductive Preferred (path : String) (modules candidates : List String) : String → Prop
  | nearby {file : String}
      (h : IsEarliest (fun c => Path.dirname c = Path.dirname path) candidates file) :
      Preferred path modules candidates file
  | suggested {module file : String}
      (distant : ∀ c ∈ candidates, Path.dirname c ≠ Path.dirname path)
      (first : IsEarliest (fun m => ∃ c ∈ candidates, Suggests m c) modules module)
      (h : IsEarliest (Suggests module) candidates file) :
      Preferred path modules candidates file
  | earliest {file : String} {others : List String}
      (distant : ∀ c ∈ candidates, Path.dirname c ≠ Path.dirname path)
      (unsuggested : ∀ m ∈ modules, ∀ c ∈ candidates, ¬ Suggests m c)
      (h : candidates = file :: others) :
      Preferred path modules candidates file

/-- **The preferences leave no choice.** -/
theorem Preferred.unique {path : String} {modules candidates : List String} {a b : String}
    (ha : Preferred path modules candidates a) (hb : Preferred path modules candidates b) :
    a = b := by
  cases ha with
  | nearby ha =>
    obtain ⟨c, hc, hnear⟩ : ∃ c ∈ candidates, Path.dirname c = Path.dirname path :=
      ⟨a, ha.mem, ha.holds⟩
    cases hb with
    | nearby hb => exact ha.unique hb
    | suggested distant => exact absurd hnear (distant c hc)
    | earliest distant => exact absurd hnear (distant c hc)
  | suggested distant first ha =>
    obtain ⟨c, hc, hsuggests⟩ := first.holds
    cases hb with
    | nearby hb => exact absurd hb.holds (distant b hb.mem)
    | suggested _ first' hb => exact (first.unique first' ▸ ha).unique hb
    | earliest _ unsuggested => exact absurd hsuggests (unsuggested _ first.mem c hc)
  | earliest distant unsuggested ha =>
    cases hb with
    | nearby hb => exact absurd hb.holds (distant b hb.mem)
    | suggested _ first _ =>
      obtain ⟨c, hc, hsuggests⟩ := first.holds
      exact absurd hsuggests (unsuggested _ first.mem c hc)
    | earliest _ _ hb => exact (List.cons.inj (ha.symm.trans hb)).1

end Modules

theorem toOption_eq_some_iff {α ε : Type} {outcome : Except ε α} {a : α} :
    outcome.toOption = some a ↔ outcome = .ok a := by
  cases outcome with
  | ok b => exact ⟨fun h => congrArg _ (Option.some.inj h), fun h => congrArg _ (Except.ok.inj h)⟩
  | error e => exact iff_of_false nofun nofun

/-- Whether a file declares a name is known from reading it. -/
instance FileView.decidableDeclares (view : FileView) (path name : String) :
    Decidable (view.Declares path name) :=
  decidable_of_iff
    (((Language.ofFile path).toOption.any fun language =>
      (view.read path).toOption.any fun text =>
        (Index.declaredNames language text).contains name) = true)
    (by
      simp only [Option.any_eq_true, toOption_eq_some_iff, List.contains_iff_mem, Declares,
        exists_and_left])

namespace Traversal

/-! ## 3. The lookup follows the preferences -/

namespace Lookup

variable {lookup : Lookup} {path name file hint module : String} {imports : List Import}
  {candidates : List String}

theorem endsWith_iff {ending : String} : endsWith path ending = true ↔ EndsWith path ending := by
  rw [endsWith, Bool.or_eq_true, beq_iff_eq, List.isSuffixOf_iff_suffix]
  refine or_congr_right ⟨?_, ?_⟩
  · rintro ⟨front, hfront⟩
    refine ⟨String.ofList front, String.toList_injective ?_⟩
    rw [String.toList_append, String.toList_append, String.toList_ofList, ← hfront,
      List.append_assoc]
    rfl
  · rintro ⟨front, rfl⟩
    refine ⟨front.toList, ?_⟩
    rw [String.toList_append, String.toList_append, List.append_assoc]
    rfl

theorem fits_iff : fits hint file = true ↔
    EndsWith (Path.splitExtension file).1 hint ∨
      EndsWith (Path.dirname (Path.splitExtension file).1) hint := by
  rw [fits, Bool.or_eq_true, endsWith_iff, endsWith_iff]

/-- A hint finds the earliest file that the module suggests. -/
theorem isEarliest_of_hinted? (h : hinted? candidates module = some file) :
    IsEarliest (Suggests module) candidates file := by
  unfold hinted? at h
  dsimp only at h
  split at h
  · cases h
  · rename_i hhint
    refine (isEarliest_of_find? h).congr fun c _ => ?_
    rw [fits_iff, Suggests, and_iff_right]
    exact fun hempty => hhint (String.isEmpty_iff.2 hempty)

theorem hinted?_eq_none_iff :
    hinted? candidates module = none ↔ ∀ c ∈ candidates, ¬ Suggests module c := by
  unfold hinted?
  dsimp only
  split
  · rename_i hhint
    refine iff_of_true rfl fun c _ hsuggests => hsuggests.1 (String.isEmpty_iff.1 hhint)
  · rename_i hhint
    rw [List.find?_eq_none]
    refine forall₂_congr fun c _ => not_congr ?_
    rw [fits_iff, Suggests, and_iff_right]
    exact fun hempty => hhint (String.isEmpty_iff.2 hempty)

/-- The modules asked for hints are those that the name may come from, less repetitions. -/
theorem sourcesOf_eq (name : String) (imports : List Import) :
    ∃ named whole, modulesFor name imports = named ++ whole ∧
      sourcesOf name imports = named ++ whole.filter (!named.contains ·) := by
  refine ⟨_, _, rfl, ?_⟩
  have hnamed : ∀ i ∈ imports, (i.specifiers.contains name || i.asName == some name)
      = decide (i.Carries name) := by
    intro i _
    rw [Bool.eq_iff_iff, Bool.or_eq_true, List.contains_iff_mem, beq_iff_eq, decide_eq_true_iff]
    rfl
  have hwhole : ∀ i ∈ imports, (i.isNamespace && (i.asName.getD "").isEmpty)
      = decide i.IsWildcard := by
    intro i _
    rw [Bool.eq_iff_iff, Bool.and_eq_true, String.isEmpty_iff, decide_eq_true_iff]
    rfl
  rw [sourcesOf, List.filter_congr hnamed, List.filter_congr hwhole]

theorem mem_sourcesOf : module ∈ sourcesOf name imports ↔ module ∈ modulesFor name imports := by
  obtain ⟨named, whole, hmodules, hsources⟩ := sourcesOf_eq name imports
  rw [hmodules, hsources, List.mem_append, List.mem_append, List.mem_filter, Bool.not_eq_true',
    ← Bool.not_eq_true, List.contains_iff_mem]
  tauto

/-- The first hint that finds a file is that of the first module that suggests one. -/
theorem exists_isEarliest_of_findSome?
    (h : (sourcesOf name imports).findSome? (hinted? candidates) = some file) :
    ∃ module, IsEarliest (fun m => ∃ c ∈ candidates, Suggests m c) (modulesFor name imports) module ∧
      IsEarliest (Suggests module) candidates file := by
  obtain ⟨before, module, after, hsources, hmodule, hbefore⟩ := List.findSome?_eq_some_iff.1 h
  have hfile := isEarliest_of_hinted? hmodule
  refine ⟨module, ?_, hfile⟩
  obtain ⟨named, whole, hmodules, hnames⟩ := sourcesOf_eq name imports
  rw [hmodules]
  refine .of_append_filter ⟨before, after, hnames ▸ hsources, ⟨file, hfile.mem, hfile.holds⟩, ?_⟩
  rintro m hm ⟨c, hc, hsuggests⟩
  exact hinted?_eq_none_iff.1 (hbefore m hm) c hc hsuggests

/-- **The lookup follows the preferences.** -/
theorem preferred_of_choose? (h : lookup.choose? path name imports = some file) :
    Preferred path (modulesFor name imports) ((lookup.declarers name).filter (· != path)) file := by
  unfold choose? at h
  dsimp only at h
  generalize (lookup.declarers name).filter (· != path) = candidates at h ⊢
  rw [Option.or_eq_some_iff, Option.or_eq_some_iff] at h
  have distant (hnone : candidates.find? (fun c => Path.dirname c == Path.dirname path) = none) :
      ∀ c ∈ candidates, Path.dirname c ≠ Path.dirname path := by
    intro c hc heq
    exact List.find?_eq_none.1 hnone c hc (beq_iff_eq.2 heq)
  -- the lookup tries the preferences in their order, each one where those before have none
  rcases h with (hnear | ⟨hnone, hhint⟩) | ⟨hnone, hfirst⟩
  · exact .nearby ((isEarliest_of_find? hnear).congr fun c _ => beq_iff_eq)
  · obtain ⟨module, hmodule, hfile⟩ := exists_isEarliest_of_findSome? hhint
    exact .suggested (distant hnone) hmodule hfile
  · rw [Option.or_eq_none_iff] at hnone
    obtain ⟨others, rfl⟩ := List.head?_eq_some_iff.1 hfirst
    refine .earliest (distant hnone.1) (fun m hm => ?_) rfl
    exact hinted?_eq_none_iff.1 (List.findSome?_eq_none_iff.1 hnone.2 m (mem_sourcesOf.2 hm))

/-- **A name that some other file declares is not left without a file.** -/
theorem isSome_choose?_iff : (lookup.choose? path name imports).isSome = true ↔
    (lookup.declarers name).filter (· != path) ≠ [] := by
  constructor
  · intro h hnone
    obtain ⟨file, hfile⟩ := Option.isSome_iff_exists.1 h
    obtain ⟨hmem, hne⟩ := mem_of_choose? hfile
    have hcandidate : file ∈ (lookup.declarers name).filter (· != path) :=
      List.mem_filter.2 ⟨hmem, bne_iff_ne.2 hne⟩
    rw [hnone] at hcandidate
    exact List.not_mem_nil hcandidate
  · intro h
    obtain ⟨first, others, hcandidates⟩ := List.exists_cons_of_ne_nil h
    rw [choose?, hcandidates, List.head?_cons, Option.isSome_or, Option.isSome_some, Bool.or_true]

end Lookup

/-! ## 4. The next hop -/

section NextHop

variable {project : Project} {path : String} {file : LoadedFile}

/-- The other files of the scope that declare a name, in the order of the scope. -/
def declarersBeside (project : Project) (path name : String) : List String :=
  (Session.scope project).filter fun c => c ≠ path ∧ project.view.Declares c name

/-- **The names that a file is led by**: those of the classes it refers to that it does not declare,
that no import which means a file brings in, and that some other file declares. -/
def leadingNames (project : Project) (path : String) (file : LoadedFile) :
    List String :=
  (ImportGraph.referencedNames file).filter fun name =>
    name ∉ file.outline.declaredNames ∧
    (∀ i ∈ file.outline.imports, ImportGraph.targetsOf project.view path i ≠ [] →
      name ∉ ImportGraph.namesOf i) ∧
    declarersBeside project path name ≠ []

/-- **The files that a loaded file leads to**, each once, itself excepted: those that its imports
mean in the order of the imports, and then for each name that it is led by the preferred of the
other files that declare the name. All of them are there, and no name is left without a file. -/
structure IsNextHop (project : Project) (path : String) (file : LoadedFile)
    (next : List String) : Prop where
  nodup : next.Nodup
  notMem : path ∉ next
  contains : ∀ target ∈ next, project.view.contains target = true
  eq : ∃ chosen,
    next = ((file.outline.imports.flatMap (ImportGraph.targetsOf project.view path)).filter
      (· ≠ path) ++ chosen).eraseDups ∧
    List.Forall₂ (fun name => Preferred path (modulesFor name file.outline.imports)
      (declarersBeside project path name)) (leadingNames project path file) chosen
  answered : ∀ name ∈ leadingNames project path file, ∃ target ∈ next,
    project.view.Declares target name

/-- **Nothing is left open**: a file has one next hop. -/
theorem IsNextHop.unique {next other : List String} (h : IsNextHop project path file next)
    (hother : IsNextHop project path file other) : next = other := by
  obtain ⟨chosen, rfl, hchosen⟩ := h.eq
  obtain ⟨chosen', rfl, hchosen'⟩ := hother.eq
  have hsame : chosen = chosen' :=
    List.right_unique_forall₂' (fun _ _ _ ha hb => ha.unique hb) hchosen hchosen'
  rw [hsame]

/-- The candidates of a faithful lookup are the other files that declare the name. -/
theorem Lookup.IsFaithful.candidates_eq {lookup : Lookup} (h : lookup.IsFaithful project.view)
    (hscope : lookup.scope = Session.scope project) (name : String) :
    (lookup.declarers name).filter (· != path) = declarersBeside project path name := by
  rw [Lookup.declarers, List.filter_filter, declarersBeside, ← hscope]
  refine List.filter_congr fun c hc => ?_
  rw [Bool.eq_iff_iff, Bool.and_eq_true, bne_iff_ne, h.any_resolve_iff hc, decide_eq_true_eq]

/-- What a function that may fail gives for the items where it does not. -/
theorem forall₂_filterMap {α β : Type} (f : α → Option β) (items : List α) :
    List.Forall₂ (fun a b => f a = some b) (items.filter fun a => (f a).isSome)
      (items.filterMap f) := by
  induction items with
  | nil => exact .nil
  | cons a items ih =>
    cases ha : f a with
    | none =>
      rw [List.filterMap_cons_none ha, List.filter_cons_of_neg (by simp [ha])]
      exact ih
    | some b =>
      rw [List.filterMap_cons_some ha, List.filter_cons_of_pos (by simp [ha])]
      exact .cons ha ih

namespace ImportGraph

variable {graph : ImportGraph}

/-- **The names that are looked up** are those of the classes that a file refers to that it does not
declare and that no import which means a file brings in. -/
theorem mem_openNames {view : FileView} {name : String} : name ∈ openNames view path file ↔
    name ∈ referencedNames file ∧ name ∉ file.outline.declaredNames ∧
      ∀ i ∈ file.outline.imports, targetsOf view path i ≠ [] → name ∉ namesOf i := by
  rw [openNames, List.mem_filter, Bool.and_eq_true, Bool.not_eq_true', Bool.not_eq_true',
    ← Bool.not_eq_true, ← Bool.not_eq_true, List.contains_iff_mem, List.contains_iff_mem]
  refine and_congr_right fun _ => and_congr_right fun _ => ?_
  rw [resolved, List.mem_flatMap]
  constructor
  · intro h i hi htargets hname
    refine h ⟨i, List.mem_filter.2 ⟨hi, ?_⟩, hname⟩
    rwa [Bool.not_eq_true', ← Bool.not_eq_true, List.isEmpty_iff]
  · rintro h ⟨i, hi, hname⟩
    obtain ⟨hi, htargets⟩ := List.mem_filter.1 hi
    rw [Bool.not_eq_true', ← Bool.not_eq_true, List.isEmpty_iff] at htargets
    exact h i hi htargets hname

/-- The names that a faithful lookup has a file for are those that the file is led by. -/
theorem filter_openNames {lookup : Lookup} (hfaithful : lookup.IsFaithful project.view)
    (hscope : lookup.scope = Session.scope project) :
    (openNames project.view path file).filter
      (fun name => (lookup.choose? path name file.outline.imports).isSome)
      = leadingNames project path file := by
  rw [leadingNames, openNames, List.filter_filter]
  refine List.filter_congr fun name hname => ?_
  have hopen := @mem_openNames path file project.view name
  rw [openNames, List.mem_filter, and_iff_right hname, and_iff_right hname] at hopen
  rw [Bool.eq_iff_iff, Bool.and_eq_true, hopen, Lookup.isSome_choose?_iff,
    hfaithful.candidates_eq hscope, decide_eq_true_eq, and_comm, and_assoc]

/-- A faithful lookup gives every name that the file is led by the preferred file. -/
theorem forall₂_preferred {lookup : Lookup} (hfaithful : lookup.IsFaithful project.view)
    (hscope : lookup.scope = Session.scope project) :
    List.Forall₂ (fun name => Preferred path (modulesFor name file.outline.imports)
        (declarersBeside project path name)) (leadingNames project path file)
      ((openNames project.view path file).filterMap fun name =>
        lookup.choose? path name file.outline.imports) := by
  rw [← filter_openNames hfaithful hscope]
  refine (forall₂_filterMap _ _).imp fun name target htarget => ?_
  rw [← hfaithful.candidates_eq hscope]
  exact Lookup.preferred_of_choose? htarget

end ImportGraph

/-- **The next hop of a file** is what its imports and the preferences among the files of the scope
say, for every lawful project and every file of it that can be loaded, whatever index is
supplied. -/
theorem isNextHop_next (session : Session) (hlaw : project.view.Lawful)
    (h : ∀ index ∈ session.supplied, index.Filled project.view)
    (hload : project.load path = .ok file) :
    IsNextHop project path file ((session.graph project).next path) := by
  have hfaithful := Session.isFaithful_lookup session hlaw h
  have hscope := session.scope_lookup_graph project
  have hchosen := @ImportGraph.forall₂_preferred project path file _ hfaithful hscope
  have hnext : (session.graph project).next path = (session.graph project).nextOf path file :=
    ImportGraph.next_of_ok hload
  refine ⟨?_, ?_, ?_, ⟨_, ?_, hchosen⟩, ?_⟩
  · rw [hnext]
    exact nodup_eraseDups _
  · exact fun hmem => ImportGraph.ne_of_mem_next hmem rfl
  · intro target htarget
    rcases ImportGraph.exists_or_mem_scope_of_mem_next htarget with ⟨p, hp, rfl⟩ | hmem
    · exact (hlaw.contains_canonical p).trans hp
    · exact (Session.contains_of_mem_scope hlaw (hscope ▸ hmem)).1
  · have hfilter : ∀ targets : List String,
        targets.filter (· != path) = targets.filter (· ≠ path) := fun targets =>
      List.filter_congr fun target _ => by rw [Bool.eq_iff_iff, bne_iff_ne, decide_eq_true_eq]
    rw [hnext, ImportGraph.nextOf, hfilter]
    rfl
  · intro name hname
    rw [← ImportGraph.filter_openNames hfaithful hscope, List.mem_filter,
      Option.isSome_iff_exists] at hname
    obtain ⟨hopen, target, htarget⟩ := hname
    refine ⟨target, ?_, (hfaithful.mem_declarers.1 (Lookup.mem_of_choose? htarget).1).2⟩
    rw [hnext]
    exact ImportGraph.mem_nextOf.2 (Or.inr ⟨name, hopen, htarget⟩)

theorem isNextHop_next_mutualImports :
    mutualImports.view.Lawful ∧
      (ImportIndex.indexFiles Session.earlierImports.view {} ["/gone.ts", "/a.ts"]).index.Filled
        mutualImports.view ∧
      ∃ file, mutualImports.load "/a.ts" = .ok file ∧
        IsNextHop mutualImports "/a.ts" file
          ((Session.graph { supplied := some (ImportIndex.indexFiles Session.earlierImports.view {}
            ["/gone.ts", "/a.ts"]).index } mutualImports).next "/a.ts") := by
  have hlaw : mutualImports.view.Lawful := (MemoryStore.isKeyed_ofFiles _ _).lawful_view
  have hloadable : mutualImports.isLoadable "/a.ts" = true := by decide +kernel
  obtain ⟨file, hload⟩ :=
    (@ImportGraph.isLoadable_iff (Session.graph {} mutualImports) "/a.ts").1 hloadable
  refine ⟨hlaw, Session.filled_earlierImports, file, hload, isNextHop_next _ hlaw ?_ hload⟩
  rintro _ ⟨⟩
  exact Session.filled_earlierImports

end NextHop

end Traversal

end CodeAtlas
