import CodeAtlas.Proofs.Path.Place
import CodeAtlas.Proofs.Store.Directory
import CodeAtlas.Proofs.Text.Contiguous

/-!
# Canonical paths of a directory

The canonical path of a path spells the place that it leads to, behind one slash or two
(`toList_absolute`). So two paths have one canonical path exactly if they lead to the same place and
agree in the slashes in front: the two slashes that a path starts with are kept, and a relative path
gets two if the directory is the top of the disk. The statement below takes the top of the disk for
a directory as well, and files whose names hold backslashes, which the laws of a view leave out.
-/

namespace CodeAtlas.DirectoryStore

open CodeAtlas.Path

variable {store : DirectoryStore} {path a b : String}

/-! ## 1. Places below a directory -/

/-- **A directory as it lies on a disk**: its path is made of plain names, none of them if it is the
top of the disk, and its files have names without slashes. -/
structure IsMounted (store : DirectoryStore) : Prop where
  root : ∃ names, (∀ seg ∈ names, IsPlain seg) ∧
    store.root.toList = '/' :: Text.joinWith ['/'] names
  files : ∀ file ∈ store.files, ∃ names, names ≠ [] ∧ (∀ seg ∈ names, IsName seg ∧ '/' ∉ seg) ∧
    file.1.toList = Text.joinWith ['/'] names

theorem IsPlaced.isMounted (h : store.IsPlaced) : store.IsMounted where
  root := by
    obtain ⟨names, -, hplain, hroot⟩ := h.root
    exact ⟨names, hplain, hroot⟩
  files file hfile := by
    obtain ⟨names, hne, hplain, hkey⟩ := h.files file hfile
    exact ⟨names, hne, fun seg hseg => ⟨(hplain seg hseg).1, (hplain seg hseg).2.1⟩, hkey⟩

/-- The place of the directory. -/
def home (store : DirectoryStore) : List Segment :=
  follow [] (segments store.root)

/-- **The place that a path leads to**, from the top of the disk or from the directory. -/
def place (store : DirectoryStore) (path : String) : List Segment :=
  follow (if isRooted path then [] else store.home) (segments path)

/-- Whether two slashes stand in front of the canonical path: those that the path itself starts
with, or the one of the top of the disk and the one after it. -/
def isDoubled (store : DirectoryStore) (path : String) : Bool :=
  if isRooted path then rootSlashes (spelling path) == 2 else store.root == "/"

/-- The slashes in front of the canonical path. -/
def slashes (store : DirectoryStore) (path : String) : Nat :=
  if store.isDoubled path then 2 else 1

/-- Whether a path leads below the directory. -/
def IsBelow (store : DirectoryStore) (path : String) : Prop :=
  ∃ names, names ≠ [] ∧ store.place path = names ++ store.home

theorem slashes_eq_iff : store.slashes a = store.slashes b ↔ store.isDoubled a = store.isDoubled b := by
  rw [slashes, slashes]
  cases store.isDoubled a <;> cases store.isDoubled b <;> simp

theorem follow_segments_append (store : DirectoryStore) (path : String) :
    follow [] (segments (store.root ++ "/" ++ path)) = follow store.home (segments path) := by
  have hspelling : spelling (store.root ++ "/" ++ path)
      = spelling store.root ++ '/' :: spelling path := by
    simp [spelling, Text.replaceChar]
  rw [segments, hspelling, Text.splitAt_append, follow_append]
  rfl

theorem isPlain_of_mem_place {seg : Segment} (h : seg ∈ store.place path) : IsPlain seg := by
  have hhome : ∀ s ∈ store.home, IsName s ∧ ('/' ∉ s ∧ '\\' ∉ s) :=
    of_mem_follow (fun s hs => absurd hs List.not_mem_nil) fun s hs => notMem_of_mem_segments hs
  refine of_mem_follow (p := fun s => '/' ∉ s ∧ '\\' ∉ s) ?_
    (fun s hs => notMem_of_mem_segments hs) seg h
  split
  · exact fun s hs => absurd hs List.not_mem_nil
  · exact hhome

theorem isNormal_place (store : DirectoryStore) (path : String) :
    IsNormal (store.slashes path) (store.place path).reverse := by
  refine isNormal_of_isPlain (fun seg hseg => isPlain_of_mem_place (List.mem_reverse.1 hseg)) _ ?_
  rw [slashes]
  split <;> decide

/-- A path with a root is taken as it is. -/
theorem toList_absolute_of_isRooted (hrooted : isRooted path = true) :
    (store.absolute path).toList = spell (store.slashes path) (store.place path).reverse := by
  have hnormal := toList_normalize_of_isRooted hrooted
  -- a rooted path has one slash or two in front, so it keeps those that it has
  have hne : rootSlashes (spelling path) ≠ 0 :=
    rootSlashes_ne_zero_iff.2 (eq_of_beq (by rwa [isRooted] at hrooted))
  have hslashes : rootSlashes (spelling path) = store.slashes path := by
    have hle := rootSlashes_le_two (spelling path)
    rw [slashes, isDoubled, hrooted, if_pos rfl]
    split
    · rename_i htwo
      exact eq_of_beq htwo
    · rename_i htwo
      have := mt beq_iff_eq.2 htwo
      omega
  have hplace : follow [] (segments path) = store.place path := by
    rw [place, hrooted, if_pos rfl]
  rw [hslashes, hplace] at hnormal
  have habsolute : isAbsolute (normalize path) = true := by
    have hhead := (isNormal_place store path).rootSlashes_spell
    rw [← hnormal, ← hslashes] at hhead
    exact isAbsolute_iff.2 (rootSlashes_ne_zero_iff.1 (hhead ▸ hne))
  rw [absolute, if_pos habsolute, hnormal]

/-! ## 2. The directory itself -/

namespace IsMounted

theorem notMem_backslash_root (h : store.IsMounted) : '\\' ∉ store.root.toList := by
  obtain ⟨names, hplain, hroot⟩ := h.root
  rw [hroot, List.mem_cons, not_or]
  exact ⟨by decide, notMem_backslash_joinWith hplain⟩

/-- The path of the directory, in terms of its place. -/
theorem root_eq (h : store.IsMounted) :
    store.root.toList = '/' :: Text.joinWith ['/'] store.home.reverse ∧
      (∀ seg ∈ store.home, IsPlain seg) ∧ (store.root == "/") = store.home.isEmpty := by
  obtain ⟨names, hplain, hroot⟩ := h.root
  have hsegments : segments store.root = [] :: Text.splitAt '/' (Text.joinWith ['/'] names) := by
    rw [segments, spelling_of_notMem h.notMem_backslash_root, hroot]
    exact Text.splitAt_append_sep List.not_mem_nil _
  have hhome : store.home = names.reverse := by
    rw [home, hsegments]
    cases names with
    | nil => rfl
    | cons name names =>
      rw [Text.splitAt_joinWith (List.cons_ne_nil _ _) fun seg hseg => (hplain seg hseg).2.1]
      exact (follow_names (fun seg hseg => (hplain seg hseg).1) []).trans (List.append_nil _)
  have hempty : (store.root == "/") = names.isEmpty := by
    cases names with
    | nil =>
      refine beq_iff_eq.2 (String.toList_inj.1 ?_)
      rw [hroot]
      rfl
    | cons name names =>
      have hnormal := isNormal_of_isPlain hplain 1 (by decide)
      refine beq_eq_false_iff_ne.2 fun heq => ?_
      have hslash : store.root.toList = spell 1 [] := by rw [heq]; rfl
      have hspell : store.root.toList = spell 1 (name :: names) := by
        rw [hroot, spell, if_neg (by simp)]
        rfl
      have hsegs := hnormal.normalSegments_spell
      rw [← hspell, hslash] at hsegs
      cases hsegs
  rw [hhome, List.reverse_reverse, List.isEmpty_reverse]
  exact ⟨hroot, fun seg hseg => hplain seg (List.mem_reverse.1 hseg), hempty⟩

/-- What stands behind the path of the directory and a slash. -/
theorem spell_below (h : store.IsMounted) {names : List Segment} (hne : names ≠ []) :
    spell (if store.root == "/" then 2 else 1) (store.home.reverse ++ names)
      = store.root.toList ++ '/' :: Text.joinWith ['/'] names := by
  obtain ⟨hroot, -, hempty⟩ := h.root_eq
  have hsegs : store.home.reverse ++ names ≠ [] := fun hnil => hne (List.append_eq_nil_iff.1 hnil).2
  rw [spell, if_neg fun hnil => hsegs hnil.2, hroot, hempty]
  cases hhome : store.home with
  | nil => rfl
  | cons name home =>
    have hhome : (name :: home).reverse ≠ [] := by simp
    rw [Text.joinWith_append hhome hne]
    rfl

/-- Behind the slash in front, the path of a directory below the top starts with a name. -/
theorem head?_joinWith_home_ne (h : store.IsMounted) (hhome : store.home ≠ []) (cs : List Char) :
    (Text.joinWith ['/'] store.home.reverse ++ cs).head? ≠ some '/' := by
  have hnormal : IsNormal 1 store.home.reverse :=
    isNormal_of_isPlain (fun seg hseg => h.root_eq.2.1 seg (List.mem_reverse.1 hseg)) 1 (by decide)
  have hhead := hnormal.head?_joinWith_ne
  cases hjoin : Text.joinWith ['/'] store.home.reverse with
  | nil =>
    have hsplit := Text.splitAt_joinWith (mt List.reverse_eq_nil_iff.1 hhome) hnormal.notMem
    rw [hjoin] at hsplit
    exact absurd rfl (hnormal.ne_nil_of_mem (hsplit ▸ List.mem_singleton_self []))
  | cons c rest =>
    rw [hjoin] at hhead
    exact hhead

/-- The slashes in front of a path below the directory. -/
theorem rootSlashes_append (h : store.IsMounted) {cs : List Char} (hcs : cs.head? ≠ some '/') :
    rootSlashes (store.root.toList ++ '/' :: cs) = if store.root == "/" then 2 else 1 := by
  obtain ⟨hroot, -, hempty⟩ := h.root_eq
  rw [hroot, hempty]
  by_cases hhome : store.home = []
  · rw [hhome]
    exact rootSlashes_replicate_append (n := 2) (by decide) hcs
  · rw [List.isEmpty_eq_false_iff.2 hhome]
    exact rootSlashes_replicate_append (n := 1) (by decide) (h.head?_joinWith_home_ne hhome _)

/-! ## 3. Canonical paths -/

/-- A path without a root is joined to that of the directory. -/
theorem toList_absolute_of_not_isRooted (h : store.IsMounted) (hunrooted : isRooted path = false) :
    (store.absolute path).toList = spell (store.slashes path) (store.place path).reverse := by
  obtain ⟨hnormal, hfollow⟩ := follow_segments_normalize hunrooted store.home
  have hhead : (normalize path).toList.head? ≠ some '/' := by
    rw [← spelling_of_notMem (notMem_backslash_normalize path)]
    exact beq_eq_false_iff_ne.1 hnormal
  have habsolute : ¬ isAbsolute (normalize path) = true := mt isAbsolute_iff.1 hhead
  have hspelling : spelling (store.root ++ "/" ++ normalize path)
      = store.root.toList ++ '/' :: (normalize path).toList := by
    rw [spelling_of_notMem, String.toList_append, String.toList_append, List.append_assoc]
    · rfl
    · simp [h.notMem_backslash_root, notMem_backslash_normalize path]
  -- the path of the directory has the root that the path itself lacks
  have hjoined : isRooted (store.root ++ "/" ++ normalize path) = true := by
    rw [isRooted, hspelling, h.root_eq.1]
    rfl
  rw [absolute, if_neg habsolute, toList_normalize_of_isRooted hjoined, hspelling,
    h.rootSlashes_append hhead, follow_segments_append, hfollow, slashes, isDoubled, place,
    hunrooted, if_neg Bool.false_ne_true, if_neg Bool.false_ne_true]

/-- **The canonical path spells the place** that a path leads to. -/
theorem toList_absolute (h : store.IsMounted) (path : String) :
    (store.absolute path).toList = spell (store.slashes path) (store.place path).reverse := by
  cases hrooted : isRooted path with
  | true => exact toList_absolute_of_isRooted hrooted
  | false => exact h.toList_absolute_of_not_isRooted hrooted

/-- **Two paths have one canonical path** exactly if they lead to the same place and agree in the
slashes in front. -/
theorem absolute_eq_iff (h : store.IsMounted) :
    store.absolute a = store.absolute b ↔
      store.place a = store.place b ∧ store.isDoubled a = store.isDoubled b := by
  rw [← String.toList_inj, h.toList_absolute, h.toList_absolute, ← slashes_eq_iff]
  constructor
  · intro heq
    have hsegs := congrArg normalSegments heq
    rw [(isNormal_place store a).normalSegments_spell, (isNormal_place store b).normalSegments_spell,
      List.reverse_inj] at hsegs
    have hslashes := congrArg rootSlashes heq
    rw [(isNormal_place store a).rootSlashes_spell, (isNormal_place store b).rootSlashes_spell]
      at hslashes
    exact ⟨hsegs, hslashes⟩
  · rintro ⟨hplace, hslashes⟩
    rw [hplace, hslashes]

/-- A canonical path is its own, also at the top of the disk. -/
theorem absolute_absolute (h : store.IsMounted) (path : String) :
    store.absolute (store.absolute path) = store.absolute path := by
  obtain ⟨p, hp⟩ := exists_absolute_eq store path
  have hnormal : normalize (store.absolute path) = store.absolute path := by
    rw [hp, normalize_normalize]
  refine absolute_of_normal hnormal (isAbsolute_iff.2 (rootSlashes_ne_zero_iff.1 ?_))
  rw [h.toList_absolute, (isNormal_place store path).rootSlashes_spell, slashes]
  split <;> decide

end IsMounted

/-! ## 4. Listings and relative paths -/

namespace IsMounted

variable {names : List Segment}

/-- The canonical path of what lies below the directory, behind the slashes of the directory. -/
theorem toList_absolute_below (h : store.IsMounted) (hne : names ≠ [])
    (hplace : store.place path = names.reverse ++ store.home)
    (hslashes : store.isDoubled path = (store.root == "/")) :
    (store.absolute path).toList = store.root.toList ++ '/' :: Text.joinWith ['/'] names := by
  rw [h.toList_absolute, hplace, slashes, hslashes, List.reverse_append, List.reverse_reverse,
    h.spell_below hne]

/-- Names without a root lead below the directory. -/
theorem absolute_of_names (h : store.IsMounted) (hne : names ≠ []) (hplain : ∀ seg ∈ names, IsPlain seg)
    (hpath : path.toList = Text.joinWith ['/'] names) :
    store.absolute path = store.root ++ "/" ++ path := by
  have hspelling : spelling path = Text.joinWith ['/'] names := by
    rw [spelling_of_notMem, hpath]
    rw [hpath]
    exact notMem_backslash_joinWith hplain
  have hunrooted : isRooted path = false := by
    rw [isRooted, hspelling]
    exact beq_eq_false_iff_ne.2 (isNormal_of_isPlain hplain 1 (by decide)).head?_joinWith_ne
  have hplace : store.place path = names.reverse ++ store.home := by
    rw [place, hunrooted, if_neg Bool.false_ne_true, segments, hspelling,
      Text.splitAt_joinWith hne fun seg hseg => (hplain seg hseg).2.1,
      follow_names fun seg hseg => (hplain seg hseg).1]
  have hslashes : store.isDoubled path = (store.root == "/") := by
    rw [isDoubled, hunrooted, if_neg Bool.false_ne_true]
  rw [← String.toList_inj, h.toList_absolute_below hne hplace hslashes, String.toList_append,
    String.toList_append, List.append_assoc, hpath]
  rfl

/-- **A listed path is canonical** unless it holds a backslash, of which a canonical path has
none. -/
theorem absolute_of_mem_list (h : store.IsMounted) {engine : Glob.Engine} {pattern : String}
    {paths : List String} (hlist : store.list pattern engine = .ok paths) (hpath : path ∈ paths) :
    store.absolute path = path ↔ '\\' ∉ path.toList := by
  constructor
  · intro habsolute
    obtain ⟨p, hp⟩ := exists_absolute_eq store path
    rw [← habsolute, hp]
    exact notMem_backslash_normalize p
  · intro hslash
    obtain ⟨isIgnored, key, hkey, rfl⟩ := exists_of_mem_list hlist hpath
    obtain ⟨file, hfile, rfl⟩ := exists_of_mem_walk hkey
    obtain ⟨names, hne, hnames, hjoin⟩ := h.files file hfile
    have hplain : ∀ seg ∈ names, IsPlain seg := by
      refine fun seg hseg => ⟨(hnames seg hseg).1, (hnames seg hseg).2, fun hc => hslash ?_⟩
      rw [String.toList_append, hjoin]
      exact List.mem_append_right _ ((Text.infix_joinWith hseg).subset hc)
    have habsolute := h.absolute_of_names hne hplain hjoin
    rw [← habsolute, h.absolute_absolute]

/-- The path from the directory to what lies below it. -/
theorem relative_of_slashes (h : store.IsMounted) (hne : names ≠ [])
    (hplace : store.place path = names.reverse ++ store.home)
    (hslashes : store.isDoubled path = (store.root == "/")) :
    (store.relative path).toList = Text.joinWith ['/'] names := by
  have habsolute : (store.absolute path).toList
      = (store.root.toList ++ ['/']) ++ Text.joinWith ['/'] names := by
    rw [h.toList_absolute_below hne hplace hslashes, List.append_assoc, List.singleton_append]
  rw [relative, habsolute, Text.dropStart?_append]
  exact String.toList_ofList

/-- With other slashes in front, what lies below the directory is taken for a place elsewhere. -/
theorem relative_of_other_slashes (h : store.IsMounted)
    (hslashes : store.isDoubled path ≠ (store.root == "/")) :
    store.relative path = dropRoot (store.absolute path) := by
  obtain ⟨hroot, -, hempty⟩ := h.root_eq
  have habsolute := h.toList_absolute path
  have hnormal := isNormal_place store path
  have hnone : Text.dropStart? (store.root.toList ++ ['/']) (store.absolute path).toList = none := by
    refine if_neg fun hprefix => ?_
    obtain ⟨rest, hrest⟩ := List.isPrefixOf_iff_prefix.1 hprefix
    rw [habsolute, List.append_assoc, List.singleton_append, hroot, spell] at hrest
    rw [hempty] at hslashes
    by_cases hhome : store.home = []
    -- one slash in front of a name, where the directory is the top of the disk
    · have hone : store.slashes path = 1 := by
        rw [hhome] at hslashes
        rw [slashes, if_neg (by simpa using hslashes)]
      rw [hhome, hone, if_neg fun hzero => Nat.one_ne_zero hzero.1] at hrest
      have hjoin : '/' :: rest = Text.joinWith ['/'] (store.place path).reverse :=
        (List.cons.inj hrest).2
      exact hnormal.head?_joinWith_ne (hjoin ▸ rfl)
    -- two slashes, where the directory has a name behind one
    · have htwo : store.slashes path = 2 := by
        rw [List.isEmpty_eq_false_iff.2 hhome] at hslashes
        rw [slashes, if_pos (by simpa using hslashes)]
      rw [htwo, if_neg fun hzero => Nat.succ_ne_zero 1 hzero.1] at hrest
      have hjoin : Text.joinWith ['/'] store.home.reverse ++ '/' :: rest
          = '/' :: Text.joinWith ['/'] (store.place path).reverse := (List.cons.inj hrest).2
      exact h.head?_joinWith_home_ne hhome ('/' :: rest) (hjoin ▸ rfl)
  rw [relative, hnone]

/-- **The path from the directory leads back** exactly if the slashes in front are those of what
lies below the directory. -/
theorem absolute_relative_iff (h : store.IsMounted) (hbelow : store.IsBelow path) :
    store.absolute (store.relative path) = store.absolute path ↔
      store.isDoubled path = (store.root == "/") := by
  obtain ⟨below, hne, hplace⟩ := hbelow
  have hplain : ∀ seg ∈ below.reverse, IsPlain seg := fun seg hseg =>
    isPlain_of_mem_place (hplace ▸ List.mem_append_left _ (List.mem_reverse.1 hseg))
  have hne : below.reverse ≠ [] := mt List.reverse_eq_nil_iff.1 hne
  rw [← List.reverse_reverse below] at hplace
  constructor
  · intro heq
    by_contra hslashes
    -- the relative path starts with no slash, so its canonical path has other slashes in front
    have hrelative := h.relative_of_other_slashes hslashes
    have hunrooted : isRooted (store.relative path) = false := by
      have hslash : '\\' ∉ (store.relative path).toList := by
        obtain ⟨p, hp⟩ := exists_absolute_eq store path
        intro hmem
        rw [hrelative, dropRoot, Text.onString, String.toList_ofList, hp] at hmem
        exact notMem_backslash_normalize p ((List.dropWhile_suffix _).subset hmem)
      rw [isRooted, spelling_of_notMem hslash, hrelative, dropRoot, Text.onString,
        String.toList_ofList]
      refine beq_eq_false_iff_ne.2 fun hhead => ?_
      have hnot := List.head?_dropWhile_not (· == '/') (store.absolute path).toList
      rw [hhead] at hnot
      exact absurd hnot (by decide)
    have hdoubled := (h.absolute_eq_iff.1 heq).2
    rw [isDoubled, hunrooted, if_neg Bool.false_ne_true] at hdoubled
    exact hslashes hdoubled.symm
  · intro hslashes
    have hrelative := h.relative_of_slashes hne hplace hslashes
    rw [h.absolute_of_names hne hplain hrelative, ← String.toList_inj,
      h.toList_absolute_below hne hplace hslashes, String.toList_append, String.toList_append,
      List.append_assoc, hrelative]
    rfl

end IsMounted

/-! ## 5. One place, one key -/

/-- **The keys of a directory**: what its canonical paths make of the places on its disk. -/
structure KeepsKeys (store : DirectoryStore) : Prop where
  /-- Two paths have one key exactly if they lead to one place behind the same slashes. -/
  absolute_eq_iff : ∀ a b, store.absolute a = store.absolute b ↔
    store.place a = store.place b ∧ store.isDoubled a = store.isDoubled b
  /-- A key is its own key. -/
  absolute_absolute : ∀ path, store.absolute (store.absolute path) = store.absolute path
  /-- A listed path is a key unless it holds a backslash. -/
  listed : ∀ engine pattern paths, store.list pattern engine = .ok paths → ∀ path ∈ paths,
    (store.absolute path = path ↔ '\\' ∉ path.toList)
  /-- The relative path of what lies below the directory has the same key, exactly if that has the
  slashes in front that relative paths get. -/
  relative : ∀ path, store.IsBelow path →
    (store.absolute (store.relative path) = store.absolute path ↔
      store.isDoubled path = (store.root == "/"))

/-- **One place, one key** for each number of slashes in front, in every directory. -/
theorem keepsKeys_of_isMounted (h : store.IsMounted) : store.KeepsKeys where
  absolute_eq_iff _ _ := h.absolute_eq_iff
  absolute_absolute := h.absolute_absolute
  listed _ _ _ hlist _ hpath := h.absolute_of_mem_list hlist hpath
  relative _ hbelow := h.absolute_relative_iff hbelow

/-- A directory with one file. -/
def workshop : DirectoryStore :=
  { root := "/work", files := [("src/a.ts", ⟨[], .at 0⟩)] }

theorem keepsKeys_workshop : workshop.IsMounted ∧ workshop.KeepsKeys := by
  have hmounted : workshop.IsMounted := by
    refine ⟨⟨[['w', 'o', 'r', 'k']], by simp [IsPlain, IsName], by decide⟩, fun file hfile => ?_⟩
    rw [List.mem_singleton.1 hfile]
    exact ⟨[['s', 'r', 'c'], ['a', '.', 't', 's']], by simp, by simp [IsName], by decide⟩
  exact ⟨hmounted, keepsKeys_of_isMounted hmounted⟩

/-- One place under two keys: its path from the top with a second slash in front, and, where the
directory is the top of the disk, its relative path. -/
theorem absolute_ne_of_doubled :
    (workshop.place "//work/src/a.ts" = workshop.place "/work/src/a.ts" ∧
      workshop.absolute "//work/src/a.ts" ≠ workshop.absolute "/work/src/a.ts") ∧
    (({ workshop with root := "/" } : DirectoryStore).place "src/a.ts"
        = ({ workshop with root := "/" } : DirectoryStore).place "/src/a.ts" ∧
      ({ workshop with root := "/" } : DirectoryStore).absolute "src/a.ts"
        ≠ ({ workshop with root := "/" } : DirectoryStore).absolute "/src/a.ts") := by
  decide +kernel

end CodeAtlas.DirectoryStore
