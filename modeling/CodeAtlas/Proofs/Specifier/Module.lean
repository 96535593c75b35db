import CodeAtlas.Proofs.Path.Climb

/-!
# What a relative module may mean

A relative module is some dots and names between them (`dotted`). The files that it may mean lie
below the directory that the dots climb to, which is the one that as many parent steps lead to,
unless they lead out of a directory without a root (`followsDots`): there the climb takes a `..` off
for every step, and ends where relative paths start.
-/

namespace CodeAtlas.Specifier

open CodeAtlas.Text CodeAtlas.Path

variable {importer base : String} {slashes climbs levels : Nat} {segs : List Segment}
  {names : List String}

/-! ## 1. Dotted modules -/

/-- A name in a dotted module. -/
structure IsModuleName (name : String) : Prop where
  ne_empty : name ≠ ""
  notMem_slash : '/' ∉ name.toList
  notMem_dot : '.' ∉ name.toList

/-- **A relative module**: a dot for the directory, one for each level up, and a dotted name. -/
def dotted (levels : Nat) (names : List String) : String :=
  String.ofList (List.replicate (levels + 1) '.' ++ joinWith ['.'] (names.map String.toList))

/-- The directory that relative modules of a file start from. -/
def directory (importer : String) : String :=
  dirname (normalize importer)

/-- **The files that names below a directory may mean.** Without a name the package itself is
meant. -/
def modulesBelow (directory : String) (names : List String) : List String :=
  let base := normalize (joinAll directory names)
  if names = [] then [normalize (join base "__init__.py")]
  else [base ++ ".py", base ++ ".pyi", join base "__init__.py"]

theorem IsModuleName.isPart {name : String} (h : IsModuleName name) : IsPart name where
  ne_empty := h.ne_empty
  notMem_slash := h.notMem_slash
  isName seg hseg := by
    -- without a dot a segment is neither `.` nor `..`
    have hdot : '.' ∉ seg := by
      intro hmem
      have hmem : '.' ∈ spelling name := mem_of_mem_splitAt hseg hmem
      obtain ⟨c, hc, heq⟩ := List.mem_map.1 hmem
      split at heq
      · exact absurd heq (by decide)
      · exact h.notMem_dot (heq ▸ hc)
    by_cases hnil : seg = []
    · exact Or.inl hnil
    · refine Or.inr ⟨hnil, ?_, ?_⟩ <;> rintro rfl <;> simp at hdot

theorem isPart_init : IsPart "__init__.py" where
  ne_empty := by decide
  notMem_slash := by decide
  isName := by
    have hsegments : segments "__init__.py" = ["__init__.py".toList] := by decide
    intro seg hseg
    rw [hsegments, List.mem_singleton] at hseg
    subst hseg
    exact Or.inr ⟨by decide, by decide, by decide⟩

/-- The names of a module, read back. -/
theorem head?_joinWith_dots_ne (h : ∀ name ∈ names, IsModuleName name) :
    (joinWith ['.'] (names.map String.toList)).head? ≠ some '.' := by
  cases names with
  | nil => simp
  | cons name names =>
    obtain ⟨hne, -, hdot⟩ := h name List.mem_cons_self
    have hhead : (joinWith ['.'] ((name :: names).map String.toList)).head? = name.toList.head? := by
      cases hname : name.toList with
      | nil => exact absurd (by simpa using hname) hne
      | cons c cs => cases names <;> simp [joinWith, hname]
    rw [hhead]
    exact fun hc => hdot (List.mem_of_mem_head? hc)

theorem joinWith_dots_eq_nil_iff (h : ∀ name ∈ names, IsModuleName name) :
    (joinWith ['.'] (names.map String.toList)).isEmpty = names.isEmpty := by
  cases names with
  | nil => rfl
  | cons name names =>
    have hne : name.toList ≠ [] := by simpa using (h name List.mem_cons_self).ne_empty
    cases names <;> simp [joinWith, hne]

theorem splitAt_joinWith_dots (h : ∀ name ∈ names, IsModuleName name) (hne : names ≠ []) :
    (splitAt '.' (joinWith ['.'] (names.map String.toList))).map String.ofList = names := by
  rw [splitAt_joinWith (by simpa using hne), List.map_map]
  · exact List.map_id'' (fun name => String.ofList_toList) names
  · intro piece hpiece
    obtain ⟨name, hname, rfl⟩ := List.mem_map.1 hpiece
    exact (h name hname).notMem_dot

theorem notMem_slash_dotted (h : ∀ name ∈ names, IsModuleName name) (levels : Nat) :
    '/' ∉ (dotted levels names).toList := by
  intro hmem
  rw [dotted, String.toList_ofList] at hmem
  rcases List.mem_append.1 hmem with hmem | hmem
  · exact absurd (List.eq_of_mem_replicate hmem) (by decide)
  · rcases mem_joinWith hmem with hc | ⟨piece, hpiece, hc⟩
    · exact absurd hc (by decide)
    · obtain ⟨name, hname, rfl⟩ := List.mem_map.1 hpiece
      exact (h name hname).notMem_slash hc

/-! ## 2. Reading a dotted module -/

theorem normalize_join_normalize (hbase : HasName base ∨ '\\' ∉ base.toList)
    {part : String} (hpart : IsPart part) (hopen : (spelling part).head? ≠ some '/') :
    normalize (join (normalize base) part) = normalize (join base part) := by
  by_cases hempty : base = ""
  · subst hempty
    rfl
  · have habsolute := hpart.not_isAbsolute
    have hslashes : keptSlashes (normalize base) = keptSlashes base := by
      rw [← rootSlashes_spelling, spelling_of_notMem (notMem_backslash_normalize base),
        toList_normalize_of_ne hempty, (isNormal_reduce base).rootSlashes_spell]
    have hjoin : keptSlashes (join (normalize base) part) = keptSlashes (join base part) := by
      rw [keptSlashes_join (Or.inr (notMem_backslash_normalize base)) hopen habsolute,
        keptSlashes_join hbase hopen habsolute, hslashes]
    have hreduce : reduce (isRooted base) (segments (normalize base))
        = reduce (isRooted base) (segments base) := by
      have hnormal := (isNormal_reduce base).normalSegments_spell
      rw [← toList_normalize_of_ne hempty,
        ← spelling_of_notMem (notMem_backslash_normalize base), normalSegments_spelling,
        isRooted_eq_of_keptSlashes hslashes] at hnormal
      exact hnormal
    have hne : ∀ path, join path part ≠ "" := by
      intro path
      have hjoined : joinAll path [part] ≠ "" :=
        joinAll_ne_empty (by simpa using hpart) (List.cons_ne_nil _ _) path
      exact hjoined
    have hrooted : isRooted (join base part) = isRooted base :=
      isRooted_eq_of_keptSlashes (keptSlashes_join hbase hopen habsolute)
    have hstack : advance (isRooted base) [] (normalize base)
        = advance (isRooted base) [] base := by
      rw [← List.reverse_inj, reverse_advance, reverse_advance, hreduce]
    rw [normalize_eq_iff (hne _) (hne _) hjoin, isRooted_eq_of_keptSlashes hjoin, hrooted,
      ← reverse_advance, ← reverse_advance, advance_join habsolute, advance_join habsolute, hstack]

/-- What the path of a module, or of a package without a name, ends with. -/
def endParts (names : List String) : List String :=
  if names = [] then ["__init__.py"] else names

/-- The files that the normal path of a module stands for, that of a package being a file itself. -/
def filesAt (names : List String) (path : String) : List String :=
  if names = [] then [path] else [path ++ ".py", path ++ ".pyi", join path "__init__.py"]

/-- **The files below a directory** are told by one normal path. -/
theorem modulesBelow_eq (hbase : HasName base ∨ '\\' ∉ base.toList) (names : List String) :
    modulesBelow base names = filesAt names (normalize (joinAll base (endParts names))) := by
  unfold modulesBelow filesAt endParts
  split
  · rename_i hnil
    rw [hnil]
    exact congrArg (fun path => [path])
      (normalize_join_normalize hbase isPart_init (by decide))
  · rfl

theorem isPart_of_mem_endParts (h : ∀ name ∈ names, IsModuleName name) :
    ∀ part ∈ endParts names, IsPart part := by
  intro part hpart
  unfold endParts at hpart
  split at hpart
  · rw [List.mem_singleton.1 hpart]
    exact isPart_init
  · exact (h part hpart).isPart

theorem endParts_ne_nil (names : List String) : endParts names ≠ [] := by
  unfold endParts
  split
  · exact List.cons_ne_nil _ _
  · assumption

theorem filesAt_injective (names : List String) : Function.Injective (filesAt names) := by
  intro a b heq
  unfold filesAt at heq
  split at heq
  · exact (List.cons.inj heq).1
  · have htext := congrArg String.toList (List.cons.inj heq).1
    rw [String.toList_append, String.toList_append, List.append_left_inj] at htext
    exact String.toList_inj.1 htext

theorem exists_toList_of_mem_filesAt {path file : String} (hfile : file ∈ filesAt names path) :
    ∃ more, file.toList = path.toList ++ more := by
  have hjoin : ∃ more, (join path "__init__.py").toList = path.toList ++ more := by
    have habsolute : isAbsolute "__init__.py" = false := by decide
    simp only [join, habsolute, Bool.false_eq_true, if_false]
    split
    · exact ⟨_, String.toList_append⟩
    · exact ⟨_, by rw [String.toList_append, String.toList_append, List.append_assoc]⟩
  unfold filesAt at hfile
  split at hfile
  · rw [List.mem_singleton.1 hfile]
    exact ⟨[], (List.append_nil _).symm⟩
  · simp only [List.mem_cons, List.not_mem_nil, or_false] at hfile
    rcases hfile with rfl | rfl | rfl
    · exact ⟨_, String.toList_append⟩
    · exact ⟨_, String.toList_append⟩
    · exact hjoin

/-- **The dots climb**, and the names lie below where they end. -/
theorem moduleCandidates_dotted (h : IsDirectory base slashes climbs segs)
    (hnames : ∀ name ∈ names, IsModuleName name) (levels : Nat) :
    moduleCandidates base (dotted levels names) = modulesBelow (climb base levels) names := by
  have hhead := head?_joinWith_dots_ne hnames
  have htake : (dotted levels names).toList.takeWhile (· == '.') = List.replicate (levels + 1) '.' := by
    have hnone : (joinWith ['.'] (names.map String.toList)).takeWhile (· == '.') = [] := by
      cases hjoin : joinWith ['.'] (names.map String.toList) with
      | nil => rfl
      | cons c cs =>
        rw [hjoin] at hhead
        have hc : c ≠ '.' := fun hc => hhead (by rw [hc]; rfl)
        simp [hc]
    rw [dotted, String.toList_ofList, List.takeWhile_append_of_pos (by simp), hnone, List.append_nil]
  have hdrop : (dotted levels names).toList.dropWhile (· == '.')
      = joinWith ['.'] (names.map String.toList) := by
    rw [dotted, String.toList_ofList, List.dropWhile_append_of_pos (by simp),
      dropWhile_of_head?_ne hhead]
  rw [modulesBelow_eq (Or.inr (isDirectory_climb h levels).notMem_backslash), moduleCandidates]
  simp only [htake, hdrop, List.length_replicate, Nat.add_sub_cancel, joinWith_dots_eq_nil_iff hnames]
  by_cases hnil : names = []
  · subst hnil
    rfl
  · rw [splitAt_joinWith_dots hnames hnil, if_neg (by simpa using hnil), endParts, if_neg hnil,
      filesAt, if_neg hnil]

theorem candidatesIn_dotted (hpython : Language.ofFile importer = .ok (some .python))
    (h : IsDirectory (directory importer) slashes climbs segs)
    (hnames : ∀ name ∈ names, IsModuleName name) (levels : Nat) :
    candidatesIn importer (dotted levels names)
      = .ok (modulesBelow (climb (directory importer) levels) names) := by
  have hrelative : isRelative (dotted levels names) = true := by
    rw [isRelative, dotted, String.toList_ofList]
    rfl
  have hslash := notMem_slash_dotted hnames levels
  rw [candidatesIn, hrelative, hpython, ← moduleCandidates_dotted h hnames]
  simp [Except.map, candidates, hrelative, hslash, directory]

/-! ## 3. Levels of a directory -/

/-- How many names a directory has. -/
def depth (directory : String) : Nat :=
  (segments directory).countP fun seg => !(seg == [] || seg == ['.'] || seg == ['.', '.'])

/-- How many `..` a directory has. -/
def height (directory : String) : Nat :=
  (segments directory).count ['.', '.']

theorem exists_segments_eq (h : IsDirectory base slashes climbs segs) :
    ∃ blanks, segments base
      = List.replicate blanks [] ++ (List.replicate climbs ['.', '.'] ++ segs) := by
  rw [h.segments_eq]
  by_cases hnil : List.replicate climbs ['.', '.'] ++ segs = []
  · refine ⟨slashes + 1, ?_⟩
    rw [hnil, List.append_nil, List.replicate_succ']
    rfl
  · exact ⟨slashes, by rw [splitAt_joinWith hnil h.isNormal.notMem]⟩

theorem depth_eq (h : IsDirectory base slashes climbs segs) : depth base = segs.length := by
  obtain ⟨blanks, hsegments⟩ := exists_segments_eq h
  have hcount : segs.countP (fun seg => !(seg == [] || seg == ['.'] || seg == ['.', '.']))
      = segs.length := by
    rw [List.countP_eq_length]
    intro seg hseg
    obtain ⟨hnil, hdot, hclimb⟩ := h.isName seg hseg
    simp [hnil, hdot, hclimb]
  rw [depth, hsegments, List.countP_append, List.countP_append, hcount, List.countP_replicate,
    List.countP_replicate]
  simp

theorem height_eq (h : IsDirectory base slashes climbs segs) : height base = climbs := by
  obtain ⟨blanks, hsegments⟩ := exists_segments_eq h
  have hcount : segs.count ['.', '.'] = 0 := by
    rw [List.count_eq_zero]
    exact fun hmem => (h.isName _ hmem).2.2 rfl
  rw [height, hsegments, List.count_append, List.count_append, hcount, List.count_replicate,
    List.count_replicate]
  simp

/-! ## 4. Dots and parent steps -/

/-- **What the dots of a relative module come to**, in a file and for some names. -/
structure FollowsDots (importer : String) (levels : Nat) (names : List String) : Prop where
  /-- Within the names of the directory, and from a root, the dots are parent steps. Where they end
  at the start or the root, a backslash in front of the first name would count as a slash. -/
  within : (isRooted importer = true ∨ levels ≤ depth (directory importer)) →
    (levels = 0 ∨ levels < depth (directory importer) ∨
      ∀ name ∈ names.head?, name.toList.head? ≠ some '\\') →
    candidatesIn importer (dotted levels names)
      = .ok (modulesBelow (parents (directory importer) levels) names)
  /-- Beyond the names of a directory without a root, every dot takes one `..` off until there is
  none, where a parent step would put one more. -/
  beyond : isRooted importer = false → depth (directory importer) < levels →
    candidatesIn importer (dotted levels names)
        = .ok (modulesBelow (parents "" (height (directory importer)
            - (levels - depth (directory importer)))) names) ∧
      candidatesIn importer (dotted levels names)
        ≠ .ok (modulesBelow (parents (directory importer) levels) names)
  /-- As long as a `..` is left, every file lies above the start. -/
  above : isRooted importer = false → 0 < height (directory importer) →
    levels < height (directory importer) + depth (directory importer) →
    ∀ paths, candidatesIn importer (dotted levels names) = .ok paths →
      ∀ path ∈ paths, ∃ rest, path.toList = '.' :: '.' :: rest

theorem hasName_parents_or (h : IsDirectory base slashes climbs segs) (levels : Nat) :
    HasName (parents base levels) ∨ '\\' ∉ (parents base levels).toList := by
  by_cases hlevels : levels = 0
  · subst hlevels
    exact Or.inr h.notMem_backslash
  · exact Or.inl (hasName_parents base hlevels)

theorem head?_spelling_endParts_ne (hnames : ∀ name ∈ names, IsModuleName name)
    (hopen : ∀ name ∈ names.head?, name.toList.head? ≠ some '\\') :
    ∀ part ∈ (endParts names).head?, (spelling part).head? ≠ some '/' := by
  unfold endParts
  split
  · intro part hpart
    rw [← Option.mem_some.1 hpart]
    decide
  · intro part hpart
    have hslash := (hnames part (List.mem_of_mem_head? hpart)).notMem_slash
    have hbackslash := hopen part hpart
    rw [spelling, replaceChar, List.head?_map]
    cases hchars : part.toList with
    | nil => simp
    | cons c cs =>
      rw [hchars] at hslash hbackslash
      have hc : c ≠ '\\' := fun hc => hbackslash (by rw [hc]; rfl)
      have hne : c ≠ '/' := fun hc => hslash (by rw [hc]; exact List.mem_cons_self)
      simp [hc, hne]

/-- **A relative module follows its dots** up to where its directory starts. -/
theorem followsDots (hpython : Language.ofFile importer = .ok (some .python))
    (hnames : ∀ name ∈ names, IsModuleName name) : FollowsDots importer levels names := by
  obtain ⟨climbs, segs, h⟩ : ∃ climbs segs,
      IsDirectory (directory importer) (keptSlashes importer) climbs segs := exists_isDirectory importer
  have hparts := isPart_of_mem_endParts hnames
  have hclimb := isDirectory_climb h levels
  have hrooted := bne_keptSlashes importer
  have hread := candidatesIn_dotted hpython h hnames levels
  have hfiles := modulesBelow_eq (Or.inr hclimb.notMem_backslash) names
  have hparents := modulesBelow_eq (hasName_parents_or h levels) names
  refine ⟨?_, ?_, ?_⟩
  · intro hlevels hopen
    rw [depth_eq h] at hlevels hopen
    rw [hread, hfiles, hparents, normalize_joinAll_climb h hparts (endParts_ne_nil names)]
    · rw [← hrooted] at hlevels
      exact hlevels.imp_left bne_iff_ne.1
    · exact hopen.imp_right (Or.imp_right (head?_spelling_endParts_ne hnames))
  · intro hunrooted hlevels
    have hzero : keptSlashes importer = 0 := by simpa [hunrooted] using hrooted
    rw [hzero] at h
    rw [depth_eq h] at hlevels ⊢
    rw [height_eq h]
    refine ⟨by rw [hread, climb_eq_parents h (Nat.le_of_lt hlevels)], fun heq => ?_⟩
    rw [hread, hfiles, hparents] at heq
    exact normalize_joinAll_climb_ne h hparts (endParts_ne_nil names) hlevels
      (filesAt_injective names (Except.ok.inj heq))
  · intro hunrooted hheight hlevels paths hpaths path hpath
    have hzero : keptSlashes importer = 0 := by simpa [hunrooted] using hrooted
    rw [hzero] at hclimb
    rw [height_eq h] at hheight hlevels
    rw [depth_eq h] at hlevels
    rw [hread, hfiles] at hpaths
    cases hpaths
    obtain ⟨rest, hrest⟩ := exists_toList_normalize_joinAll hclimb (by omega) hparts
      (endParts_ne_nil names)
    obtain ⟨more, hmore⟩ := exists_toList_of_mem_filesAt hpath
    exact ⟨rest ++ more, by rw [hmore, hrest]; rfl⟩

theorem followsDots_user :
    Language.ofFile "/app/pkg/a.py" = .ok (some .python) ∧
      (∀ name ∈ ["core", "user"], IsModuleName name) ∧
      FollowsDots "/app/pkg/a.py" 1 ["core", "user"] := by
  have hpython : Language.ofFile "/app/pkg/a.py" = .ok (some .python) :=
    (Language.ofFile_of_path (by decide +kernel)).trans (congrArg Except.ok (by decide +kernel))
  have hnames : ∀ name ∈ ["core", "user"], IsModuleName name := by
    intro name hname
    simp only [List.mem_cons, List.not_mem_nil, or_false] at hname
    rcases hname with rfl | rfl <;> exact ⟨by decide, by decide, by decide⟩
  exact ⟨hpython, hnames, followsDots hpython hnames⟩

/-- Two modules that are not looked for where parent steps lead: one a level above the start, and one
whose name opens with a backslash, a level below the root. -/
theorem strays_from_parents :
    (candidatesIn "a.py" (dotted 1 ["x"]) = .ok ["x.py", "x.pyi", "x/__init__.py"] ∧
      modulesBelow (parents (directory "a.py") 1) ["x"]
        = ["../x.py", "../x.pyi", "../x/__init__.py"]) ∧
    (candidatesIn "/pkg/a.py" (dotted 1 ["\\x"]) = .ok ["//x.py", "//x.pyi", "//x/__init__.py"] ∧
      modulesBelow (parents (directory "/pkg/a.py") 1) ["\\x"]
        = ["/x.py", "/x.pyi", "/x/__init__.py"]) := by
  refine ⟨⟨?_, by decide +kernel⟩, ?_, by decide +kernel⟩
  · rw [candidatesIn, if_neg (by decide +kernel), Language.ofFile_of_path (by decide +kernel)]
    exact congrArg Except.ok (by decide +kernel)
  · rw [candidatesIn, if_neg (by decide +kernel), Language.ofFile_of_path (by decide +kernel)]
    exact congrArg Except.ok (by decide +kernel)

end CodeAtlas.Specifier
