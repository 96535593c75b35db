import CodeAtlas.Index.Basic
import Mathlib.Data.List.Basic

/-!
# What an index says of a project

An index reflects a project at some moment (`ImportIndex.Reflects`) if, of the files that it has
read and that are still there, it knows the declared names, and if what it has skipped cannot be
read. Reading one file more keeps that, so an index reflects the project as long as what it was
filled with has not changed since: whatever was scanned in which order, under which patterns, and
whatever has come or gone in the meantime (`Filled.reflects`).
-/

namespace CodeAtlas

/-- **A file declares a name**: it can be read, and its text declares the name in the language of
the file. -/
def FileView.Declares (view : FileView) (path name : String) : Prop :=
  ∃ language text, Language.ofFile path = .ok language ∧ view.read path = .ok text ∧
    name ∈ Index.declaredNames language text

/-- Whether the text of a file can be read. -/
def FileView.canRead (view : FileView) (path : String) : Bool :=
  (view.read path).isOk

theorem FileView.canRead_of_ok {view : FileView} {path text : String}
    (h : view.read path = .ok text) : view.canRead path = true := by
  rw [canRead, h]
  rfl

theorem FileView.canRead_of_error {view : FileView} {path : String} {e : Failure}
    (h : view.read path = .error e) : view.canRead path = false := by
  rw [canRead, h]
  rfl

namespace ImportIndex

variable {index : ImportIndex} {view now : FileView} {path p name other : String}

/-! ## 1. One file more -/

/-- The files that entries hold under a name. -/
def filesIn (entries : List (String × List String)) (name : String) : List String :=
  ((entries.find? (·.1 == name)).map (·.2)).getD []

theorem filesIn_cons_of_eq {entry : String × List String} (h : entry.1 = name)
    (rest : List (String × List String)) : filesIn (entry :: rest) name = entry.2 := by
  have hfind : (entry :: rest).find? (·.1 == name) = some entry :=
    List.find?_cons_of_pos (beq_iff_eq.2 h)
  rw [filesIn, hfind]
  rfl

theorem filesIn_cons_of_ne {entry : String × List String} (h : entry.1 ≠ name)
    (rest : List (String × List String)) : filesIn (entry :: rest) name = filesIn rest name := by
  have hfind : (entry :: rest).find? (·.1 == name) = rest.find? (·.1 == name) :=
    List.find?_cons_of_neg (mt beq_iff_eq.1 h)
  rw [filesIn, hfind, filesIn]

/-- The files of a name with one more. -/
def addOnce (paths : List String) (path : String) : List String :=
  if paths.contains path then paths else paths ++ [path]

theorem addOnce_of_mem {paths : List String} (h : path ∈ paths) : addOnce paths path = paths :=
  if_pos (List.contains_iff_mem.2 h)

theorem addOnce_of_notMem {paths : List String} (h : path ∉ paths) :
    addOnce paths path = paths ++ [path] :=
  if_neg (mt List.contains_iff_mem.1 h)

theorem mem_addOnce {paths : List String} : p ∈ addOnce paths path ↔ p ∈ paths ∨ p = path := by
  by_cases hmem : path ∈ paths
  · rw [addOnce_of_mem hmem, iff_self_or]
    rintro rfl
    exact hmem
  · rw [addOnce_of_notMem hmem, List.mem_append, List.mem_singleton]

theorem addOnce_addOnce (paths : List String) (path : String) :
    addOnce (addOnce paths path) path = addOnce paths path :=
  addOnce_of_mem (mem_addOnce.2 (Or.inr rfl))

/-- **One insertion adds one file under one name.** -/
theorem filesIn_insert (name path other : String) (entries : List (String × List String)) :
    filesIn (insert name path entries) other
      = if other = name then addOnce (filesIn entries other) path else filesIn entries other := by
  induction entries with
  | nil =>
    rw [insert]
    by_cases h : name = other
    · rw [filesIn_cons_of_eq h, if_pos h.symm]
      rfl
    · rw [filesIn_cons_of_ne h, if_neg (Ne.symm h)]
  | cons entry rest ih =>
    obtain ⟨n, paths⟩ := entry
    rw [insert]
    by_cases hn : n = name
    · rw [if_pos (beq_iff_eq.2 hn)]
      by_cases ho : n = other
      · rw [filesIn_cons_of_eq ho, filesIn_cons_of_eq ho, if_pos (ho.symm.trans hn)]
        rfl
      · rw [filesIn_cons_of_ne ho, filesIn_cons_of_ne ho, if_neg]
        rintro rfl
        exact ho hn
    · rw [if_neg (mt beq_iff_eq.1 hn)]
      by_cases ho : n = other
      · rw [filesIn_cons_of_eq ho, filesIn_cons_of_eq ho, if_neg]
        rintro rfl
        exact hn ho
      · rw [filesIn_cons_of_ne ho, filesIn_cons_of_ne ho, ih]

theorem filesIn_foldl (names : List String) (path other : String)
    (entries : List (String × List String)) :
    filesIn (names.foldl (fun entries name => insert name path entries) entries) other
      = if other ∈ names then addOnce (filesIn entries other) path else filesIn entries other := by
  induction names generalizing entries with
  | nil => rw [List.foldl_nil, if_neg List.not_mem_nil]
  | cons name names ih =>
    rw [List.foldl_cons, ih, filesIn_insert]
    by_cases hname : other = name
    · rw [if_pos hname, addOnce_addOnce, ite_self, if_pos (List.mem_cons.2 (Or.inl hname))]
    · rw [if_neg hname]
      exact if_congr (by rw [List.mem_cons, or_iff_right hname]) rfl rfl

theorem mem_filesIn_foldl {names : List String} {entries : List (String × List String)} :
    p ∈ filesIn (names.foldl (fun entries name => insert name path entries) entries) other ↔
      p ∈ filesIn entries other ∨ (other ∈ names ∧ p = path) := by
  rw [filesIn_foldl]
  by_cases h : other ∈ names
  · rw [if_pos h, mem_addOnce, and_iff_right h]
  · rw [if_neg h, or_iff_left]
    exact fun hname => h hname.1

theorem mem_resolve_addFile {names : List String} :
    p ∈ (index.addFile path names).resolve name ↔
      p ∈ index.resolve name ∨ (name ∈ names ∧ p = path) :=
  mem_filesIn_foldl

theorem covers_iff : index.covers path = true ↔ path ∈ index.scanned ∨ path ∈ index.skipped := by
  rw [covers, Bool.or_eq_true, List.contains_iff_mem, List.contains_iff_mem]

/-! ## 2. The invariant -/

/-- **An index reflects a project** in what it has met of it. -/
structure Reflects (index : ImportIndex) (now : FileView) : Prop where
  mem_scanned : ∀ name path, path ∈ index.resolve name → path ∈ index.scanned
  mem_resolve : ∀ name path, path ∈ index.scanned → now.contains path = true →
    (path ∈ index.resolve name ↔ now.Declares path name)
  skipped : ∀ path ∈ index.skipped, ∃ e, now.read path = .error e

namespace Reflects

theorem empty (now : FileView) : Reflects {} now where
  mem_scanned _ _ h := absurd h List.not_mem_nil
  mem_resolve _ _ h := absurd h List.not_mem_nil
  skipped _ h := absurd h List.not_mem_nil

/-- Whether the index counts as built does not matter. -/
theorem built (h : index.Reflects now) : Reflects { index with isBuilt := true } now :=
  ⟨h.mem_scanned, h.mem_resolve, h.skipped⟩

/-- **Reading one file more keeps the invariant.** -/
theorem addFile (h : index.Reflects now) {names : List String} (hnew : path ∉ index.scanned)
    (hnames : now.contains path = true → ∀ name, name ∈ names ↔ now.Declares path name) :
    (index.addFile path names).Reflects now where
  mem_scanned name p hp := by
    rcases mem_resolve_addFile.1 hp with hp | ⟨-, rfl⟩
    · exact List.mem_append_left _ (h.mem_scanned name p hp)
    · exact List.mem_append_right _ List.mem_cons_self
  mem_resolve name p hp hcontains := by
    rw [mem_resolve_addFile]
    rcases List.mem_append.1 hp with hread | hp
    -- a file that was read before is another one, and nothing changes for it
    · rw [h.mem_resolve name p hread hcontains, or_iff_left]
      rintro ⟨-, rfl⟩
      exact hnew hread
    · rw [List.mem_singleton] at hp
      subst hp
      have hold : p ∉ index.resolve name := fun hmem => hnew (h.mem_scanned name p hmem)
      rw [or_iff_right hold, and_iff_left rfl]
      exact hnames hcontains name
  skipped := h.skipped

theorem skipFile (h : index.Reflects now) (hlost : ∃ e, now.read path = .error e) :
    (index.skipFile path).Reflects now where
  mem_scanned := h.mem_scanned
  mem_resolve := h.mem_resolve
  skipped p hp := by
    rcases List.mem_append.1 hp with hp | hp
    · exact h.skipped p hp
    · rw [List.mem_singleton.1 hp]
      exact hlost

/-- What an index tells of a file that is there is true. -/
theorem declares (h : index.Reflects now) (hcontains : now.contains path = true)
    (hmem : path ∈ index.resolve name) : now.Declares path name :=
  (h.mem_resolve name path (h.mem_scanned name path hmem) hcontains).1 hmem

/-- **Of a file that it has met, an index tells everything.** -/
theorem mem_resolve_iff (h : index.Reflects now) (hcontains : now.contains path = true)
    (hcovers : index.covers path = true) : path ∈ index.resolve name ↔ now.Declares path name := by
  rcases covers_iff.1 hcovers with hscanned | hskipped
  · exact h.mem_resolve name path hscanned hcontains
  · refine ⟨h.declares hcontains, ?_⟩
    rintro ⟨language, text, -, hread, -⟩
    obtain ⟨e, herror⟩ := h.skipped path hskipped
    cases hread.symm.trans herror

end Reflects

/-! ## 3. Scans -/

theorem indexFiles_of_covers (h : index.covers path = true) (rest : List String) :
    indexFiles view index (path :: rest) = indexFiles view index rest := by
  rw [indexFiles, if_pos h]

/-- A scan stops at a path whose language cannot be told. -/
theorem indexFiles_of_address_error (h : ¬ index.covers path = true) {e : Failure}
    (hlanguage : Language.ofFile path = .error e) (rest : List String) :
    indexFiles view index (path :: rest) = ⟨index, [], .error e⟩ := by
  rw [indexFiles, if_neg h, hlanguage]

/-- The scan that reports a line before. -/
def Scan.reported (line : Log.Line) (scan : Scan) : Scan :=
  { scan with lines := line :: scan.lines }

theorem indexFiles_of_unreadable (h : ¬ index.covers path = true)
    {language : Option Language} (hlanguage : Language.ofFile path = .ok language) {e : Failure}
    (hread : view.read path = .error e) (rest : List String) :
    indexFiles view index (path :: rest)
      = (indexFiles view (index.skipFile path) rest).reported (skipLine path e) := by
  rw [indexFiles, if_neg h, hlanguage, hread]
  rfl

theorem indexFiles_of_readable (h : ¬ index.covers path = true)
    {language : Option Language} (hlanguage : Language.ofFile path = .ok language) {text : String}
    (hread : view.read path = .ok text) (rest : List String) :
    indexFiles view index (path :: rest)
      = indexFiles view (index.addFile path (Index.declaredNames language text)) rest := by
  rw [indexFiles, if_neg h, hlanguage, hread]

theorem index_indexFiles_of_address_error (h : ¬ index.covers path = true) {e : Failure}
    (hlanguage : Language.ofFile path = .error e) (rest : List String) :
    (indexFiles view index (path :: rest)).index = index := by
  rw [indexFiles_of_address_error h hlanguage]

theorem index_indexFiles_of_unreadable (h : ¬ index.covers path = true)
    {language : Option Language} (hlanguage : Language.ofFile path = .ok language) {e : Failure}
    (hread : view.read path = .error e) (rest : List String) :
    (indexFiles view index (path :: rest)).index
      = (indexFiles view (index.skipFile path) rest).index := by
  rw [indexFiles_of_unreadable h hlanguage hread]
  rfl

theorem index_indexFiles_of_readable (h : ¬ index.covers path = true)
    {language : Option Language} (hlanguage : Language.ofFile path = .ok language) {text : String}
    (hread : view.read path = .ok text) (rest : List String) :
    (indexFiles view index (path :: rest)).index
      = (indexFiles view (index.addFile path (Index.declaredNames language text)) rest).index := by
  rw [indexFiles_of_readable h hlanguage hread]

/-- **Induction along a scan**, with the case that a path brings. -/
theorem indexFiles_induction (view : FileView) {motive : ImportIndex → List String → Prop}
    (nil : ∀ index, motive index [])
    (covered : ∀ index path rest, index.covers path = true → motive index rest →
      motive index (path :: rest))
    (stopped : ∀ index path rest e, ¬ index.covers path = true →
      Language.ofFile path = .error e → motive index (path :: rest))
    (unreadable : ∀ index path rest language e, ¬ index.covers path = true →
      Language.ofFile path = .ok language → view.read path = .error e →
      motive (index.skipFile path) rest → motive index (path :: rest))
    (readable : ∀ index path rest language text, ¬ index.covers path = true →
      Language.ofFile path = .ok language → view.read path = .ok text →
      motive (index.addFile path (Index.declaredNames language text)) rest →
      motive index (path :: rest))
    (index : ImportIndex) (paths : List String) : motive index paths := by
  induction paths generalizing index with
  | nil => exact nil index
  | cons path rest ih =>
    by_cases hcovers : index.covers path = true
    · exact covered index path rest hcovers (ih index)
    · cases hlanguage : Language.ofFile path with
      | error e => exact stopped index path rest e hcovers hlanguage
      | ok language =>
        cases hread : view.read path with
        | error e => exact unreadable index path rest language e hcovers hlanguage hread (ih _)
        | ok text => exact readable index path rest language text hcovers hlanguage hread (ih _)

/-- A scan forgets nothing. -/
theorem subset_indexFiles (view : FileView) (index : ImportIndex) (paths : List String) :
    index.scanned ⊆ (indexFiles view index paths).index.scanned ∧
      index.skipped ⊆ (indexFiles view index paths).index.skipped := by
  induction index, paths using indexFiles_induction view with
  | nil index => exact ⟨fun p hp => hp, fun p hp => hp⟩
  | covered index path rest hcovers ih => rwa [indexFiles_of_covers hcovers]
  | stopped index path rest e hcovers hlanguage =>
    rw [index_indexFiles_of_address_error hcovers hlanguage]
    exact ⟨fun p hp => hp, fun p hp => hp⟩
  | unreadable index path rest language e hcovers hlanguage hread ih =>
    rw [index_indexFiles_of_unreadable hcovers hlanguage hread]
    exact ⟨ih.1, fun p hp => ih.2 (List.mem_append_left _ hp)⟩
  | readable index path rest language text hcovers hlanguage hread ih =>
    rw [index_indexFiles_of_readable hcovers hlanguage hread]
    exact ⟨fun p hp => ih.1 (List.mem_append_left _ hp), ih.2⟩

/-- What a scan skips cannot be read. -/
theorem unreadable_of_mem_skipped {paths : List String} (p : String)
    (h : p ∈ (indexFiles view index paths).index.skipped) :
    p ∈ index.skipped ∨ ∃ e, view.read p = .error e := by
  induction index, paths using indexFiles_induction view with
  | nil index => exact Or.inl h
  | covered index path rest hcovers ih =>
    rw [indexFiles_of_covers hcovers] at h
    exact ih h
  | stopped index path rest e hcovers hlanguage =>
    rw [index_indexFiles_of_address_error hcovers hlanguage] at h
    exact Or.inl h
  | unreadable index path rest language e hcovers hlanguage hread ih =>
    rw [index_indexFiles_of_unreadable hcovers hlanguage hread] at h
    rcases ih h with hmem | hlost
    · rcases List.mem_append.1 hmem with hmem | hmem
      · exact Or.inl hmem
      · rw [List.mem_singleton.1 hmem]
        exact Or.inr ⟨e, hread⟩
    · exact Or.inr hlost
  | readable index path rest language text hcovers hlanguage hread ih =>
    rw [index_indexFiles_of_readable hcovers hlanguage hread] at h
    exact ih h

/-! ## 4. What a scan meets -/

variable {paths : List String}

/-- The paths that an index has not met, each once. -/
def fresh (index : ImportIndex) (paths : List String) : List String :=
  (paths.filter fun path => !index.covers path).eraseDups

theorem mem_fresh : p ∈ index.fresh paths ↔ p ∈ paths ∧ index.covers p = false := by
  rw [fresh, List.mem_eraseDups, List.mem_filter, Bool.not_eq_true']

theorem fresh_of_covers (h : index.covers path = true) (rest : List String) :
    index.fresh (path :: rest) = index.fresh rest := by
  rw [fresh, List.filter_cons_of_neg, fresh]
  rw [h]
  exact Bool.false_ne_true

/-- A path that is met is not met again. -/
theorem fresh_cons (h : ¬ index.covers path = true) {later : ImportIndex}
    (hlater : ∀ p, later.covers p = (index.covers p || p == path)) (rest : List String) :
    index.fresh (path :: rest) = path :: later.fresh rest := by
  have hnew : (!index.covers path) = true := by
    rw [Bool.not_eq_true', Bool.eq_false_iff]
    exact h
  rw [fresh, List.filter_cons_of_pos (p := fun path => !index.covers path) hnew,
    List.eraseDups_cons, List.filter_filter, fresh]
  congr 3
  funext p
  rw [hlater, Bool.not_or, Bool.and_comm]

theorem covers_addFile (index : ImportIndex) (path : String) (names : List String) (p : String) :
    (index.addFile path names).covers p = (index.covers p || p == path) := by
  rw [Bool.eq_iff_iff, Bool.or_eq_true, covers_iff, covers_iff, beq_iff_eq, addFile,
    List.mem_append, List.mem_singleton]
  exact or_right_comm

theorem covers_skipFile (index : ImportIndex) (path : String) (p : String) :
    (index.skipFile path).covers p = (index.covers p || p == path) := by
  rw [Bool.eq_iff_iff, Bool.or_eq_true, covers_iff, covers_iff, beq_iff_eq, skipFile,
    List.mem_append, List.mem_singleton]
  exact or_assoc.symm

/-- **What a scan meets that comes to its end**: the paths not met before, each once and in their
order, those that can be read apart from those that cannot. -/
theorem files_indexFiles (h : (indexFiles view index paths).outcome = .ok ()) :
    (indexFiles view index paths).index.scanned
        = index.scanned ++ (index.fresh paths).filter view.canRead ∧
      (indexFiles view index paths).index.skipped
        = index.skipped ++ (index.fresh paths).filter fun path => !view.canRead path := by
  induction index, paths using indexFiles_induction view with
  | nil index => exact ⟨(List.append_nil _).symm, (List.append_nil _).symm⟩
  | covered index path rest hcovers ih =>
    rw [indexFiles_of_covers hcovers] at h ⊢
    rw [fresh_of_covers hcovers]
    exact ih h
  | stopped index path rest e hcovers hlanguage =>
    rw [indexFiles_of_address_error hcovers hlanguage] at h
    cases h
  | unreadable index path rest language e hcovers hlanguage hread ih =>
    have hlost := FileView.canRead_of_error hread
    rw [indexFiles_of_unreadable hcovers hlanguage hread] at h ⊢
    obtain ⟨hscanned, hskipped⟩ := ih h
    rw [fresh_cons hcovers (covers_skipFile index path), List.filter_cons_of_neg,
      List.filter_cons_of_pos]
    · exact ⟨hscanned, hskipped.trans (List.append_assoc _ _ _)⟩
    · rw [hlost]
      rfl
    · rw [hlost]
      exact Bool.false_ne_true
  | readable index path rest language text hcovers hlanguage hread ih =>
    have hfound := FileView.canRead_of_ok hread
    rw [indexFiles_of_readable hcovers hlanguage hread] at h ⊢
    obtain ⟨hscanned, hskipped⟩ := ih h
    rw [fresh_cons hcovers (covers_addFile index path _), List.filter_cons_of_pos hfound,
      List.filter_cons_of_neg]
    · exact ⟨hscanned.trans (List.append_assoc _ _ _), hskipped⟩
    · rw [hfound]
      exact Bool.false_ne_true

/-- A scan that comes to its end has met all of its paths. -/
theorem covers_of_mem (h : (indexFiles view index paths).outcome = .ok ())
    (hp : p ∈ paths) : (indexFiles view index paths).index.covers p = true := by
  obtain ⟨hscanned, hskipped⟩ := files_indexFiles h
  rw [covers_iff, hscanned, hskipped, List.mem_append, List.mem_append]
  cases hcovers : index.covers p with
  | true => exact (covers_iff.1 hcovers).imp Or.inl Or.inl
  | false =>
    have hfresh : p ∈ index.fresh paths := mem_fresh.2 ⟨hp, hcovers⟩
    cases hread : view.canRead p with
    | true => exact Or.inl (Or.inr (List.mem_filter.2 ⟨hfresh, hread⟩))
    | false =>
      refine Or.inr (Or.inr (List.mem_filter.2 ⟨hfresh, ?_⟩))
      rw [hread]
      rfl

/-- A scan comes to its end if the language of every path can be told. -/
theorem outcome_indexFiles (h : ∀ p ∈ paths, ∃ language, Language.ofFile p = .ok language) :
    (indexFiles view index paths).outcome = .ok () := by
  induction index, paths using indexFiles_induction view with
  | nil index => rfl
  | covered index path rest hcovers ih =>
    rw [indexFiles_of_covers hcovers]
    exact ih fun p hp => h p (List.mem_cons_of_mem path hp)
  | stopped index path rest e hcovers hlanguage =>
    obtain ⟨language, hok⟩ := h path List.mem_cons_self
    cases hlanguage.symm.trans hok
  | unreadable index path rest language e hcovers hlanguage hread ih =>
    rw [indexFiles_of_unreadable hcovers hlanguage hread]
    exact ih fun p hp => h p (List.mem_cons_of_mem path hp)
  | readable index path rest language text hcovers hlanguage hread ih =>
    rw [indexFiles_of_readable hcovers hlanguage hread]
    exact ih fun p hp => h p (List.mem_cons_of_mem path hp)

/-- **A scan meets all of its paths**, if the language of each can be told. -/
theorem covers_indexFiles (h : ∀ p ∈ paths, ∃ language, Language.ofFile p = .ok language) :
    ∀ p ∈ paths, (indexFiles view index paths).index.covers p = true :=
  fun _ hp => covers_of_mem (outcome_indexFiles h) hp

end ImportIndex

/-! ## 5. Indexes that have been filled -/

/-- **What an index has met since is as it was**: the files read that are still there have kept
their texts, and the files skipped cannot be read. -/
structure FileView.Keeps (now before : FileView) (old new : ImportIndex) : Prop where
  read_eq : ∀ path ∈ new.scanned, path ∉ old.scanned → now.contains path = true →
    now.read path = before.read path
  unreadable : ∀ path ∈ new.skipped, path ∉ old.skipped → ∃ e, now.read path = .error e

theorem FileView.Keeps.of_subset {now before : FileView} {old later new : ImportIndex}
    (h : now.Keeps before old new) (hscanned : old.scanned ⊆ later.scanned)
    (hskipped : old.skipped ⊆ later.skipped) : now.Keeps before later new where
  read_eq path hpath hnew := h.read_eq path hpath fun hold => hnew (hscanned hold)
  unreadable path hpath hnew := h.unreadable path hpath fun hold => hnew (hskipped hold)

theorem FileView.declares_iff {view : FileView} {path name : String} {language : Option Language}
    {text : String} (hlanguage : Language.ofFile path = .ok language)
    (hread : view.read path = .ok text) :
    view.Declares path name ↔ name ∈ Index.declaredNames language text := by
  constructor
  · rintro ⟨l, t, hl, ht, hname⟩
    cases hlanguage.symm.trans hl
    cases hread.symm.trans ht
    exact hname
  · exact fun hname => ⟨language, text, hlanguage, hread, hname⟩

namespace ImportIndex

variable {now before : FileView} {index : ImportIndex}

theorem keeps_indexFiles (now : FileView) (index : ImportIndex) (paths : List String) :
    now.Keeps now index (indexFiles now index paths).index where
  read_eq _ _ _ _ := rfl
  unreadable path hpath hnew := (unreadable_of_mem_skipped path hpath).resolve_left hnew

/-- **A scan keeps the invariant**, if what it meets is still as it was. -/
theorem Reflects.indexFiles {paths : List String} (h : index.Reflects now)
    (hkeeps : now.Keeps before index (indexFiles before index paths).index) :
    (indexFiles before index paths).index.Reflects now := by
  induction index, paths using indexFiles_induction before with
  | nil index => exact h.built
  | covered index path rest hcovers ih =>
    rw [indexFiles_of_covers hcovers] at hkeeps ⊢
    exact ih h hkeeps
  | stopped index path rest e hcovers hlanguage =>
    rw [index_indexFiles_of_address_error hcovers hlanguage]
    exact h
  | unreadable index path rest language e hcovers hlanguage hread ih =>
    rw [index_indexFiles_of_unreadable hcovers hlanguage hread] at hkeeps ⊢
    rw [covers_iff, not_or] at hcovers
    have hlost := hkeeps.unreadable path
      ((subset_indexFiles before _ rest).2 (List.mem_append_right _ List.mem_cons_self)) hcovers.2
    exact ih (h.skipFile hlost)
      (hkeeps.of_subset (fun _ hp => hp) fun _ hp => List.mem_append_left _ hp)
  | readable index path rest language text hcovers hlanguage hread ih =>
    rw [index_indexFiles_of_readable hcovers hlanguage hread] at hkeeps ⊢
    rw [covers_iff, not_or] at hcovers
    have hkept := hkeeps.read_eq path
      ((subset_indexFiles before _ rest).1 (List.mem_append_right _ List.mem_cons_self)) hcovers.1
    -- the text is the one that was read then, so the names found then are declared now
    refine ih (h.addFile hcovers.1 fun hcontains name => ?_)
      (hkeeps.of_subset (fun _ hp => List.mem_append_left _ hp) fun _ hp => hp)
    exact (FileView.declares_iff hlanguage ((hkept hcontains).trans hread)).symm

/-- **The indexes that a project has at some moment**, given what was done with them before: they
were new or cleared, built under some options, or given more paths, each at a moment since which
what they met has stayed as it was. -/
inductive Filled (now : FileView) : ImportIndex → Prop where
  | empty : Filled now {}
  | build (before : FileView) (options : DiscoveryOptions) :
      now.Keeps before {} (build before options).index → Filled now (build before options).index
  | indexFiles (before : FileView) {index : ImportIndex} (paths : List String) :
      Filled now index → now.Keeps before index (indexFiles before index paths).index →
      Filled now (indexFiles before index paths).index

/-- **Every index of a project reflects it.** -/
theorem Filled.reflects (h : Filled now index) : index.Reflects now := by
  induction h with
  | empty => exact Reflects.empty now
  | build before options hkeeps =>
    unfold ImportIndex.build at hkeeps ⊢
    split at hkeeps
    · exact Reflects.empty now
    · exact (Reflects.empty now).indexFiles hkeeps
  | indexFiles before paths _ hkeeps ih => exact ih.indexFiles hkeeps

/-- An index that is built now is one of them. -/
theorem filled_build (now : FileView) (options : DiscoveryOptions) :
    Filled now (build now options).index := by
  refine Filled.build now options ?_
  unfold ImportIndex.build
  split
  · exact ⟨fun _ h => absurd h List.not_mem_nil, fun _ h => absurd h List.not_mem_nil⟩
  · exact keeps_indexFiles now {} _

end ImportIndex

end CodeAtlas
