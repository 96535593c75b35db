import CodeAtlas.Proofs.Outcome
import CodeAtlas.Proofs.Store.Lawful
import CodeAtlas.Store.Directory

/-!
# The laws of a directory

The view of a directory is lawful as long as the directory and its files have names that paths can
spell (`DirectoryStore.IsPlaced`): segments without slashes of either kind. A name with a backslash
would be read as two segments, and such a file is listed but never found.
-/

namespace CodeAtlas

namespace Path

/-! ## 1. Plain names -/

/-- A name that a path can spell. -/
def IsPlain (seg : Segment) : Prop :=
  IsName seg ∧ '/' ∉ seg ∧ '\\' ∉ seg

variable {names : List Segment}

theorem isNormal_of_isPlain (h : ∀ seg ∈ names, IsPlain seg) (slashes : Nat) (hle : slashes ≤ 2) :
    IsNormal slashes names where
  le_two := hle
  isReduced := ⟨names.reverse, 0, (List.append_nil _).symm,
    fun seg hseg => (h seg (List.mem_reverse.1 hseg)).1, fun _ => rfl⟩
  notMem seg hseg := (h seg hseg).2.1

theorem notMem_backslash_joinWith (h : ∀ seg ∈ names, IsPlain seg) :
    '\\' ∉ Text.joinWith ['/'] names := by
  intro hmem
  rcases Text.mem_joinWith hmem with hc | ⟨seg, hseg, hc⟩
  · exact absurd hc (by decide)
  · exact (h seg hseg).2.2 hc

/-- **An absolute path of plain names is normal.** -/
theorem normalize_of_isPlain (h : ∀ seg ∈ names, IsPlain seg) {path : String}
    (hpath : path.toList = '/' :: Text.joinWith ['/'] names) : normalize path = path := by
  have hspell : path.toList = spell 1 names := by
    rw [hpath, spell, if_neg (by simp)]
    rfl
  have hnormal := (isNormal_of_isPlain h 1 (by decide)).normalizeChars_spell
  refine normalize_of_toList ?_ (hspell.trans hnormal.symm)
  rw [← hspell, hpath, List.mem_cons, not_or]
  exact ⟨by decide, notMem_backslash_joinWith h⟩

/-! ## 2. Absolute paths -/

theorem isAbsolute_iff {path : String} : isAbsolute path = true ↔ path.toList.head? = some '/' := by
  rw [isAbsolute, beq_iff_eq]

/-- The normal form of an absolute path is absolute. -/
theorem isAbsolute_normalize {path : String} (h : isAbsolute path = true) :
    isAbsolute (normalize path) = true := by
  rw [isAbsolute_iff] at h ⊢
  by_cases hempty : path.isEmpty = true
  · rw [normalize_of_isEmpty hempty]
    exact h
  · have hhead : (Text.replaceChar '\\' '/' path.toList).head? = some '/' := by
      rw [Text.replaceChar, List.head?_map, h]
      rfl
    -- a path with a root keeps at least one slash in front
    have hroot := rootSlashes_ne_zero hhead
    rw [toList_normalize hempty, normalizeChars_eq, spell, if_neg fun hzero => hroot hzero.1]
    obtain ⟨n, hn⟩ := Nat.exists_eq_succ_of_ne_zero hroot
    rw [hn, List.replicate_succ]
    rfl

end Path

namespace DirectoryStore

variable {store : DirectoryStore} {engine : Glob.Engine}

/-! ## 3. Names in a directory -/

/-- **A directory and its files have plain names**, and the directory is not the top of the
disk. -/
structure IsPlaced (store : DirectoryStore) : Prop where
  root : ∃ names, names ≠ [] ∧ (∀ seg ∈ names, Path.IsPlain seg) ∧
    store.root.toList = '/' :: Text.joinWith ['/'] names
  files : ∀ file ∈ store.files, ∃ names, names ≠ [] ∧ (∀ seg ∈ names, Path.IsPlain seg) ∧
    file.1.toList = Text.joinWith ['/'] names

theorem isAbsolute_absolute (h : store.IsPlaced) (path : String) :
    Path.isAbsolute (store.absolute path) = true := by
  unfold absolute
  dsimp only
  split
  · assumption
  · obtain ⟨names, -, -, hroot⟩ := h.root
    refine Path.isAbsolute_normalize (Path.isAbsolute_iff.2 ?_)
    rw [String.toList_append, String.toList_append, hroot]
    rfl

theorem exists_absolute_eq (store : DirectoryStore) (path : String) :
    ∃ p, store.absolute path = Path.normalize p := by
  unfold absolute
  dsimp only
  split
  · exact ⟨path, rfl⟩
  · exact ⟨_, rfl⟩

theorem absolute_of_normal {path : String} (hnormal : Path.normalize path = path)
    (h : Path.isAbsolute path = true) : store.absolute path = path := by
  rw [absolute, hnormal, if_pos h]

/-- **One file, one name.** -/
theorem absolute_absolute (h : store.IsPlaced) (path : String) :
    store.absolute (store.absolute path) = store.absolute path := by
  obtain ⟨p, hp⟩ := exists_absolute_eq store path
  refine absolute_of_normal ?_ (isAbsolute_absolute h path)
  rw [hp, Path.normalize_normalize]

theorem put_eq (key : String) (file : StoredFile) (files : List (String × StoredFile)) :
    put key file files = Table.put key file files := by
  induction files with
  | nil => rfl
  | cons other files ih => rw [put, ih, Table.put]

/-- A file with plain names can be written. -/
theorem IsPlaced.write (h : store.IsPlaced) {path : String} {names : List Path.Segment}
    (hnames : names ≠ []) (hplain : ∀ seg ∈ names, Path.IsPlain seg)
    (hpath : path.toList = Text.joinWith ['/'] names) (bytes : List UInt8) (time : Option Int) :
    (store.write path bytes time).IsPlaced where
  root := h.root
  files file hfile := by
    have hput : file ∈ put _ _ store.files := hfile
    rw [put_eq] at hput
    rcases Table.mem_put hput with hkey | hfile
    · refine ⟨names, hnames, hplain, ?_⟩
      have hspell : path.toList = Path.spell 0 names := by
        rw [hpath, Path.spell, if_neg fun hnil => hnames hnil.2]
        rfl
      have hnormal := (Path.isNormal_of_isPlain hplain 0 (Nat.zero_le 2)).normalizeChars_spell
      rw [hkey, String.toList_ofList, hspell, hnormal, ← hspell, hpath]
    · exact h.files file hfile

/-! ## 4. Listings -/

/-- What a walk reaches are keys of the directory. -/
theorem exists_of_mem_walk {isIgnored : String → Bool} {path : String}
    (hpath : path ∈ store.walk isIgnored) :
    ∃ file ∈ store.files, file.1 = path := by
  unfold walk at hpath
  obtain ⟨segs, hsegs, rfl⟩ := List.mem_map.1 hpath
  rw [List.mem_mergeSort] at hsegs
  obtain ⟨⟨key, file⟩, hfile, rfl⟩ := List.mem_map.1 (List.mem_of_mem_filter hsegs)
  refine ⟨(key, file), hfile, ?_⟩
  -- the segments of a key, joined again, are the key
  have hsegs : ((Text.splitAt '/' key.toList).map String.ofList).map String.toList
      = Text.splitAt '/' key.toList := by
    rw [List.map_map]
    exact List.map_id'' (fun seg => String.toList_ofList) _
  rw [← String.toList_inj, String.toList_intercalate, hsegs]
  exact (Text.joinWith_splitAt '/' key.toList).symm

/-- **A file is found under its key** below the root. -/
theorem contains_of_mem_files (h : store.IsPlaced) {file : String × StoredFile}
    (hfile : file ∈ store.files) : store.contains (store.root ++ "/" ++ file.1) = true := by
  obtain ⟨above, habove, hplainAbove, hroot⟩ := h.root
  obtain ⟨names, hnames, hplain, hkey⟩ := h.files file hfile
  have hpath : (store.root ++ "/" ++ file.1).toList = store.root.toList ++ ['/'] ++ file.1.toList := by
    rw [String.toList_append, String.toList_append]
    rfl
  have hspelt : (store.root ++ "/" ++ file.1).toList
      = '/' :: Text.joinWith ['/'] (above ++ names) := by
    rw [hpath, hroot, hkey, Text.joinWith_append habove hnames]
    simp
  have hall : ∀ seg ∈ above ++ names, Path.IsPlain seg := by
    intro seg hseg
    rcases List.mem_append.1 hseg with hseg | hseg
    · exact hplainAbove seg hseg
    · exact hplain seg hseg
  have habsolute : store.absolute (store.root ++ "/" ++ file.1) = store.root ++ "/" ++ file.1 := by
    refine absolute_of_normal (Path.normalize_of_isPlain hall hspelt) (Path.isAbsolute_iff.2 ?_)
    rw [hspelt]
    rfl
  -- only one slash stands in front, so the place is the path itself
  have hplace : '/' :: (store.root ++ "/" ++ file.1).toList.dropWhile (· == '/')
      = store.root.toList ++ ['/'] ++ file.1.toList := by
    have hhead := (Path.isNormal_of_isPlain hall 1 (by decide)).head?_joinWith_ne
    rw [← hpath, hspelt, List.dropWhile_cons, if_pos (beq_self_eq_true '/'),
      Text.dropWhile_of_head?_ne hhead]
  have hfound : (store.files.find? (·.1 == file.1)).isSome = true :=
    List.find?_isSome.2 ⟨file, hfile, beq_self_eq_true file.1⟩
  rw [contains, file?, habsolute, hplace, Text.dropStart?_append]
  dsimp only
  rw [Option.isSome_map, String.ofList_toList]
  exact hfound

/-- A listing tells of files that a walk reaches. -/
theorem exists_of_mem_list {pattern path : String} {paths : List String}
    (hlist : store.list pattern engine = .ok paths) (hpath : path ∈ paths) :
    ∃ isIgnored, ∃ key ∈ store.walk isIgnored, path = store.root ++ "/" ++ key := by
  unfold list at hlist
  obtain ⟨isIgnored, -, hlist⟩ := Outcome.exists_of_bind_eq_ok hlist
  dsimp only at hlist
  split at hlist
  · cases hlist
    exact absurd hpath List.not_mem_nil
  · obtain ⟨isSelected, -, hlist⟩ := Outcome.exists_of_bind_eq_ok hlist
    cases hlist
    obtain ⟨key, hkey, rfl⟩ := List.mem_map.1 hpath
    exact ⟨isIgnored, key, List.mem_of_mem_filter hkey, rfl⟩

/-! ## 5. The view -/

@[simp] theorem view_canonical (store : DirectoryStore) (engine : Glob.Engine) :
    (store.view engine).canonical = store.absolute := rfl

@[simp] theorem view_contains (store : DirectoryStore) (engine : Glob.Engine) :
    (store.view engine).contains = store.contains := rfl

@[simp] theorem view_list (store : DirectoryStore) (engine : Glob.Engine) (pattern : String) :
    (store.view engine).list pattern = store.list pattern engine := rfl

/-- **The view of a directory whose names are plain is lawful.** -/
theorem IsPlaced.lawful_view (h : store.IsPlaced) : (store.view engine).Lawful where
  canonical_canonical path := by
    rw [view_canonical]
    exact absolute_absolute h path
  contains_canonical path := by
    rw [view_canonical, view_contains, contains, contains, file?, absolute_absolute h, file?]
  contains_of_mem_list pattern paths hlist path hpath := by
    rw [view_list] at hlist
    obtain ⟨isIgnored, key, hkey, rfl⟩ := exists_of_mem_list hlist hpath
    obtain ⟨file, hfile, rfl⟩ := exists_of_mem_walk hkey
    rw [view_contains]
    exact contains_of_mem_files h hfile
  dropStart?_canonical path := by
    obtain ⟨p, hp⟩ := exists_absolute_eq store path
    rw [view_canonical, hp]
    exact Path.dropStart?_normalize p

end DirectoryStore

end CodeAtlas
