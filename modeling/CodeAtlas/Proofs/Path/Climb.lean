import CodeAtlas.Proofs.Path.Join
import CodeAtlas.Proofs.Text.Contiguous
import CodeAtlas.Specifier

/-!
# Directories some levels up

There are two ways up from a directory: to take names off it (`isDirectory_climb`), and to put `..`
behind it. They lead to the same place as long as there are names to take off, and from the root
(`normalize_joinAll_climb`). Where the names of a directory without a root are used up, the two
part: a `..` in front is taken off where one more would be needed (`normalize_joinAll_climb_ne`).
-/

namespace CodeAtlas

open Text

namespace Path

variable {slashes climbs levels : Nat} {names : List Segment} {directory path : String}
  {parts : List String}

/-! ## 1. Directories -/

/-- **A directory as paths name it**: plain names behind slashes or behind a run of `..`. -/
structure IsDirectory (directory : String) (slashes climbs : Nat) (names : List Segment) : Prop where
  toList_eq : directory.toList = written slashes (List.replicate climbs ['.', '.'] ++ names)
  isPlain : ∀ name ∈ names, IsPlain name
  climbs_eq : slashes ≠ 0 → climbs = 0
  slashes_le : slashes ≤ 2

namespace IsDirectory

variable (h : IsDirectory directory slashes climbs names)

include h

theorem isName : ∀ name ∈ names, IsName name :=
  fun name hname => (h.isPlain name hname).1

theorem of_mem {seg : Segment} (hseg : seg ∈ List.replicate climbs ['.', '.'] ++ names) :
    seg ≠ [] ∧ '/' ∉ seg ∧ '\\' ∉ seg := by
  rcases List.mem_append.1 hseg with hseg | hseg
  · rw [List.eq_of_mem_replicate hseg]
    exact ⟨List.cons_ne_nil _ _, by decide, by decide⟩
  · obtain ⟨hname, hslashes⟩ := h.isPlain seg hseg
    exact ⟨hname.1, hslashes⟩

theorem isNormal : IsNormal slashes (List.replicate climbs ['.', '.'] ++ names) where
  le_two := h.slashes_le
  isReduced := by
    refine ⟨names.reverse, climbs, ?_, fun seg hseg => h.isName seg (List.mem_reverse.1 hseg),
      fun hroot => h.climbs_eq (bne_iff_ne.1 hroot)⟩
    rw [List.reverse_append, List.reverse_replicate]
  notMem seg hseg := (h.of_mem hseg).2.1

theorem notMem_backslash : '\\' ∉ directory.toList := by
  intro hmem
  rw [h.toList_eq, written] at hmem
  rcases List.mem_append.1 hmem with hmem | hmem
  · exact absurd (List.eq_of_mem_replicate hmem) (by decide)
  · rcases mem_joinWith hmem with hc | ⟨seg, hseg, hc⟩
    · exact absurd hc (by decide)
    · exact (h.of_mem hseg).2.2 hc

theorem spelling_eq :
    spelling directory = written slashes (List.replicate climbs ['.', '.'] ++ names) := by
  rw [spelling_of_notMem h.notMem_backslash, h.toList_eq]

theorem segments_eq : segments directory = List.replicate slashes [] ++
    splitAt '/' (joinWith ['/'] (List.replicate climbs ['.', '.'] ++ names)) := by
  rw [segments, h.spelling_eq, written, splitAt_replicate_append]

theorem keptSlashes_eq : keptSlashes directory = slashes := by
  rw [← rootSlashes_spelling, h.spelling_eq, written]
  exact rootSlashes_replicate_append h.slashes_le h.isNormal.head?_joinWith_ne

/-- The stack of a directory holds its segments. -/
theorem advance_eq : advance (slashes != 0) [] directory
    = names.reverse ++ List.replicate climbs ['.', '.'] := by
  have hreduce : reduce (slashes != 0) (segments directory)
      = List.replicate climbs ['.', '.'] ++ names := by
    rw [h.segments_eq, reduce_replicate_append]
    by_cases hnil : List.replicate climbs ['.', '.'] ++ names = []
    · rw [hnil]
      exact reduce_cons_nil _ []
    · rw [splitAt_joinWith hnil h.isNormal.notMem, reduce_of_isReduced h.isNormal.isReduced]
  have hreverse := congrArg List.reverse hreduce
  rwa [← reverse_advance, List.reverse_reverse, List.reverse_append, List.reverse_replicate]
    at hreverse

/-- The directory above: a name is taken off, or a `..` if there are only such. -/
theorem dirname : IsDirectory (Path.dirname directory) slashes (climbs - (1 - names.length))
    names.dropLast where
  toList_eq := by
    have hdirname := toList_dirname (fun seg hseg => (h.of_mem hseg).1)
      (fun seg hseg => (h.of_mem hseg).2.1) h.toList_eq
    rw [hdirname]
    by_cases hnames : names = []
    · subst hnames
      simp
    · have hlength : 1 - names.length = 0 := by
        have := List.length_pos_iff.2 hnames
        omega
      rw [List.dropLast_append_of_ne_nil hnames, hlength, Nat.sub_zero]
  isPlain name hname := h.isPlain name ((List.dropLast_sublist names).subset hname)
  climbs_eq hslashes := by
    have := h.climbs_eq hslashes
    omega
  slashes_le := h.slashes_le

end IsDirectory

/-- **Some levels up**: names are taken off first, then any `..`. -/
theorem isDirectory_climb (h : IsDirectory directory slashes climbs names) (levels : Nat) :
    IsDirectory (Specifier.climb directory levels) slashes (climbs - (levels - names.length))
      (names.take (names.length - levels)) := by
  induction levels generalizing directory climbs names with
  | zero => simpa [Specifier.climb] using h
  | succ levels ih =>
    have hup := ih h.dirname
    have hclimbs : climbs - (1 - names.length) - (levels - names.dropLast.length)
        = climbs - (levels + 1 - names.length) := by
      rw [List.length_dropLast]
      omega
    have hnames : names.dropLast.take (names.dropLast.length - levels)
        = names.take (names.length - (levels + 1)) := by
      rw [List.dropLast_eq_take, List.take_take, List.length_take]
      congr 1
      omega
    rwa [hclimbs, hnames] at hup

/-- The directory of a file. -/
theorem exists_isDirectory (path : String) :
    ∃ climbs names, IsDirectory (dirname (normalize path)) (keptSlashes path) climbs names := by
  obtain ⟨climbs, names, hreduce, hnames, hroot⟩ := exists_reduce_eq path
  by_cases hdot : keptSlashes path = 0 ∧ List.replicate climbs ['.', '.'] ++ names = []
  · -- the path leads nowhere, so its normal form is at most a dot
    obtain ⟨hslashes, hnil⟩ := hdot
    refine ⟨0, [], ?_, fun name hname => absurd hname List.not_mem_nil, fun _ => rfl,
      keptSlashes_le_two path⟩
    rw [hslashes]
    by_cases hempty : path = ""
    · subst hempty
      decide +kernel
    · have hnormal : normalize path = "." := by
        rw [← String.toList_inj, toList_normalize_of_ne hempty, hreduce, hslashes, hnil]
        rfl
      rw [hnormal]
      decide +kernel
  · have hempty : path ≠ "" := by
      rintro rfl
      refine hdot ⟨rfl, ?_⟩
      rw [← hreduce]
      rfl
    have hnormal : IsDirectory (normalize path) (keptSlashes path) climbs names := by
      refine ⟨?_, hnames, hroot, keptSlashes_le_two path⟩
      rw [toList_normalize_of_ne hempty, hreduce, spell_eq_written hdot]
    exact ⟨_, _, hnormal.dirname⟩

/-! ## 2. Climbing by `..` -/

/-- The path that climbs some levels from a directory by parent steps. -/
def parents (directory : String) (levels : Nat) : String :=
  joinAll directory (List.replicate levels "..")

theorem not_isAbsolute_climb : isAbsolute ".." = false := by decide

theorem not_isAbsolute_of_mem_replicate {part : String} (h : part ∈ List.replicate levels "..") :
    isAbsolute part = false := by
  rw [List.eq_of_mem_replicate h]
  exact not_isAbsolute_climb

theorem hasName_parents (directory : String) (hlevels : levels ≠ 0) :
    HasName (parents directory levels) := by
  obtain ⟨more, rfl⟩ := Nat.exists_eq_succ_of_ne_zero hlevels
  have hclimb : HasName ".." := ⟨'.', by decide, by decide⟩
  rw [parents, List.replicate_succ]
  exact (hclimb.join_right not_isAbsolute_climb directory).joinAll fun part hpart =>
    not_isAbsolute_of_mem_replicate hpart

theorem keptSlashes_parents (h : '\\' ∉ directory.toList) (levels : Nat) :
    keptSlashes (parents directory levels) = keptSlashes directory := by
  refine keptSlashes_joinAll (Or.inr h) (fun part hpart => ?_) fun part hpart => ?_
  · rw [List.eq_of_mem_replicate hpart]
    decide
  · have hmem : part ∈ List.replicate levels ".." := List.mem_of_mem_head? hpart
    rw [List.eq_of_mem_replicate hmem]
    decide

theorem advance_parents (rooted : Bool) (stack : List Segment) (directory : String) (levels : Nat) :
    advance rooted stack (parents directory levels)
      = (List.replicate levels ['.', '.']).foldl (pushSegment rooted)
          (advance rooted stack directory) := by
  have hclimb : ∀ (n : Nat) (s : List Segment), (List.replicate n "..").foldl (advance rooted) s
      = (List.replicate n ['.', '.']).foldl (pushSegment rooted) s := by
    intro n
    induction n with
    | zero => exact fun s => rfl
    | succ n ih => exact fun s => ih (pushSegment rooted s ['.', '.'])
  rw [parents, advance_joinAll fun part hpart => not_isAbsolute_of_mem_replicate hpart, hclimb]

/-- Parts below a directory add their names to its stack. -/
theorem foldl_advance_parts {rooted : Bool} (hparts : ∀ part ∈ parts, IsPart part)
    (stack : List Segment) :
    parts.foldl (advance rooted) stack
      = ((parts.flatMap segments).filter (· ≠ [])).reverse ++ stack := by
  have hsegs : ∀ seg ∈ parts.flatMap segments, seg = [] ∨ IsName seg := by
    intro seg hseg
    obtain ⟨part, hpart, hseg⟩ := List.mem_flatMap.1 hseg
    exact (hparts part hpart).isName seg hseg
  rw [← foldl_push_of_forall hsegs, List.foldl_flatMap]
  rfl

/-- The normal form of a path below a directory, in terms of the stack of the directory. -/
theorem reduce_segments_joinAll (hparts : ∀ part ∈ parts, IsPart part) (rooted : Bool)
    (directory : String) :
    reduce rooted (segments (joinAll directory parts))
      = (advance rooted [] directory).reverse ++ (parts.flatMap segments).filter (· ≠ []) := by
  rw [← reverse_advance, advance_joinAll fun part hpart => (hparts part hpart).not_isAbsolute,
    foldl_advance_parts hparts, List.reverse_append, List.reverse_reverse]

theorem joinAll_ne_empty (hparts : ∀ part ∈ parts, IsPart part) (hne : parts ≠ [])
    (directory : String) : joinAll directory parts ≠ "" := by
  have key : ∀ (parts : List String) (base : String), (∀ part ∈ parts, IsPart part) →
      base ≠ "" → joinAll base parts ≠ "" := by
    intro parts
    induction parts with
    | nil => exact fun base _ hbase => hbase
    | cons part parts ih =>
      intro base hparts hbase
      refine ih _ (fun p hp => hparts p (List.mem_cons_of_mem part hp)) ?_
      have hpart := hparts part List.mem_cons_self
      unfold join
      rw [if_neg (by rw [hpart.not_isAbsolute]; exact Bool.false_ne_true)]
      split <;> simp [hbase]
  obtain ⟨part, parts, rfl⟩ := List.exists_cons_of_ne_nil hne
  have hpart := hparts part List.mem_cons_self
  refine key parts _ (fun p hp => hparts p (List.mem_cons_of_mem part hp)) ?_
  unfold join
  rw [if_neg (by rw [hpart.not_isAbsolute]; exact Bool.false_ne_true)]
  split <;> simp [hpart.ne_empty]

theorem isRooted_eq_of_keptSlashes {a b : String} (h : keptSlashes a = keptSlashes b) :
    isRooted a = isRooted b := by
  rw [← bne_keptSlashes, ← bne_keptSlashes, h]

/-- Parts joined to what a climb leaves keep the slashes in front of the directory, if a name is left
or the first part does not open with a slash. -/
theorem IsDirectory.keptSlashes_joinAll_climb (h : IsDirectory directory slashes climbs names)
    (hparts : ∀ part ∈ parts, IsPart part)
    (hopen : levels < names.length ∨ ∀ part ∈ parts.head?, (spelling part).head? ≠ some '/') :
    keptSlashes (joinAll (Specifier.climb directory levels) parts) = slashes := by
  have hclimb := isDirectory_climb h levels
  have habsolute : ∀ part ∈ parts, isAbsolute part = false := fun part hpart =>
    (hparts part hpart).not_isAbsolute
  rw [← hclimb.keptSlashes_eq]
  rcases hopen with hlevels | hopen
  · refine keptSlashes_joinAll_of_hasName ?_ habsolute
    obtain ⟨name, hname⟩ := List.exists_mem_of_ne_nil
      (names.take (names.length - levels)) (List.ne_nil_of_length_pos (by simp; omega))
    obtain ⟨hnil, hslash, -⟩ := hclimb.of_mem (List.mem_append_right _ hname)
    obtain ⟨c, hc⟩ := List.exists_mem_of_ne_nil name hnil
    refine ⟨c, ?_, fun heq => hslash (heq ▸ hc)⟩
    rw [hclimb.spelling_eq, written]
    exact List.mem_append_right _
      ((infix_joinWith (List.mem_append_right _ hname)).subset hc)
  · exact keptSlashes_joinAll (Or.inr hclimb.notMem_backslash)
      (fun part hpart => ⟨(hparts part hpart).ne_empty, habsolute part hpart⟩) hopen

/-- While there are names or a root, a climb leaves on the stack what as many `..` leave. -/
theorem IsDirectory.advance_climb (h : IsDirectory directory slashes climbs names)
    (hlevels : slashes ≠ 0 ∨ levels ≤ names.length) :
    advance (slashes != 0) [] (Specifier.climb directory levels)
      = advance (slashes != 0) [] (parents directory levels) := by
  have hreverse : ∀ name ∈ names.reverse, IsName name := fun name hname =>
    h.isName name (List.mem_reverse.1 hname)
  rw [(isDirectory_climb h levels).advance_eq, advance_parents, h.advance_eq, List.reverse_take]
  by_cases hroot : slashes = 0
  · have hle : levels ≤ names.length := hlevels.resolve_left fun hne => hne hroot
    have hzero : climbs - (levels - names.length) = climbs := by omega
    have hdrop : names.length - (names.length - levels) = levels := by omega
    rw [foldl_climbs_of_le hreverse _ (by simpa using hle), hzero, hdrop]
  · -- below a root there are names only
    have hclimbs := h.climbs_eq hroot
    have hrooted : (slashes != 0) = true := bne_iff_ne.2 hroot
    subst hclimbs
    rw [hrooted, Nat.zero_sub, List.replicate_zero, List.append_nil, List.append_nil,
      foldl_climbs_rooted hreverse]
    by_cases hle : levels ≤ names.length
    · rw [Nat.sub_sub_self hle]
    · rw [List.drop_eq_nil_of_le (by simp; omega), List.drop_eq_nil_of_le (by simp; omega)]

/-- **Taking names off is climbing**, while there are names or a root. Where the climb ends at the
start or the root, the first part must not open with a backslash, which would count as a slash in
front. -/
theorem normalize_joinAll_climb (h : IsDirectory directory slashes climbs names)
    (hparts : ∀ part ∈ parts, IsPart part) (hne : parts ≠ [])
    (hlevels : slashes ≠ 0 ∨ levels ≤ names.length)
    (hopen : levels = 0 ∨ levels < names.length ∨
      ∀ part ∈ parts.head?, (spelling part).head? ≠ some '/') :
    normalize (joinAll (Specifier.climb directory levels) parts)
      = normalize (joinAll (parents directory levels) parts) := by
  by_cases hzero : levels = 0
  · subst hzero
    rfl
  · have habsolute : ∀ part ∈ parts, isAbsolute part = false := fun part hpart =>
      (hparts part hpart).not_isAbsolute
    have hleft := h.keptSlashes_joinAll_climb hparts (hopen.resolve_left hzero)
    have hright : keptSlashes (joinAll (parents directory levels) parts) = slashes := by
      rw [keptSlashes_joinAll_of_hasName (hasName_parents directory hzero) habsolute,
        keptSlashes_parents h.notMem_backslash, h.keptSlashes_eq]
    have hslashes := hleft.trans hright.symm
    rw [normalize_eq_iff (joinAll_ne_empty hparts hne _) (joinAll_ne_empty hparts hne _) hslashes,
      ← isRooted_eq_of_keptSlashes hslashes, ← bne_keptSlashes, hleft,
      reduce_segments_joinAll hparts, reduce_segments_joinAll hparts, h.advance_climb hlevels]

/-! ## 3. Climbing above the start -/

theorem toList_joinAll_climbs (n : Nat) {base : String} (hbase : base.toList.getLast? = some '.') :
    (joinAll base (List.replicate n "..")).toList
      = base.toList ++ (List.replicate n ['/', '.', '.']).flatten := by
  induction n generalizing base with
  | zero => simp [joinAll]
  | succ n ih =>
    have hne : base.isEmpty = false := by
      rw [Bool.eq_false_iff]
      intro hempty
      rw [String.isEmpty_iff.1 hempty] at hbase
      cases hbase
    have hjoin : join base ".." = base ++ "/" ++ ".." := by
      simp [join, not_isAbsolute_climb, hne, hbase]
    have htext : (join base "..").toList = base.toList ++ ['/', '.', '.'] := by
      rw [hjoin, String.toList_append, String.toList_append, List.append_assoc]
      rfl
    have hrest := ih (show (join base "..").toList.getLast? = some '.' by rw [htext]; simp)
    rw [htext] at hrest
    simpa [joinAll, List.replicate_succ] using hrest

theorem joinWith_climbs (n : Nat) : joinWith ['/'] (List.replicate (n + 1) ['.', '.'])
    = '.' :: '.' :: (List.replicate n ['/', '.', '.']).flatten := by
  induction n with
  | zero => rfl
  | succ n ih =>
    rw [List.replicate_succ, List.replicate_succ, joinWith_cons_cons, ← List.replicate_succ, ih]
    rfl

/-- The text of `..` several times over. -/
theorem toList_parents_empty (levels : Nat) :
    (parents "" levels).toList = written 0 (List.replicate levels ['.', '.']) := by
  cases levels with
  | zero => rfl
  | succ n =>
    have hstart : join "" ".." = ".." := by decide
    rw [written, joinWith_climbs n, parents, List.replicate_succ, joinAll, List.foldl_cons, hstart]
    exact toList_joinAll_climbs n rfl

/-- Above the names of a directory without a root, as many `..` are left as are not taken off. -/
theorem climb_eq_parents (h : IsDirectory directory 0 climbs names) (hlevels : names.length ≤ levels) :
    Specifier.climb directory levels = parents "" (climbs - (levels - names.length)) := by
  have hnames : names.length - levels = 0 := by omega
  rw [← String.toList_inj, (isDirectory_climb h levels).toList_eq, toList_parents_empty, hnames,
    List.take_zero, List.append_nil]

theorem IsDirectory.advance_parents_beyond (h : IsDirectory directory 0 climbs names) (more : Nat) :
    advance false [] (parents directory (names.length + more))
      = List.replicate (climbs + more) ['.', '.'] := by
  have hreverse : ∀ name ∈ names.reverse, IsName name := fun name hname =>
    h.isName name (List.mem_reverse.1 hname)
  have hbeyond := foldl_climbs_beyond hreverse climbs more
  have hdirectory : advance false [] directory = names.reverse ++ List.replicate climbs ['.', '.'] :=
    h.advance_eq
  rwa [List.length_reverse, ← hdirectory, ← advance_parents] at hbeyond

/-- **Above the names of a directory without a root** the two ways up lead apart. -/
theorem normalize_joinAll_climb_ne (h : IsDirectory directory 0 climbs names)
    (hparts : ∀ part ∈ parts, IsPart part) (hne : parts ≠ []) (hlevels : names.length < levels) :
    normalize (joinAll (Specifier.climb directory levels) parts)
      ≠ normalize (joinAll (parents directory levels) parts) := by
  have habsolute : ∀ part ∈ parts, isAbsolute part = false := fun part hpart =>
    (hparts part hpart).not_isAbsolute
  have hright : keptSlashes (joinAll (parents directory levels) parts) = 0 := by
    rw [keptSlashes_joinAll_of_hasName (hasName_parents directory (by omega)) habsolute,
      keptSlashes_parents h.notMem_backslash, h.keptSlashes_eq]
  intro heq
  have hslashes := keptSlashes_eq_of_normalize (joinAll_ne_empty hparts hne _)
    (joinAll_ne_empty hparts hne _) heq
  obtain ⟨more, rfl⟩ : ∃ more, levels = names.length + more := ⟨levels - names.length, by omega⟩
  have hunrooted : isRooted (joinAll (parents directory (names.length + more)) parts) = false := by
    rw [← bne_keptSlashes, hright]
    rfl
  have hclimb : advance false [] (Specifier.climb directory (names.length + more)) = _ :=
    (isDirectory_climb h _).advance_eq
  rw [normalize_eq_iff (joinAll_ne_empty hparts hne _) (joinAll_ne_empty hparts hne _) hslashes,
    isRooted_eq_of_keptSlashes hslashes, hunrooted, reduce_segments_joinAll hparts,
    reduce_segments_joinAll hparts, hclimb, h.advance_parents_beyond] at heq
  -- the parts add the same names to more `..` on one side
  have hlengths := congrArg List.length (List.append_cancel_right heq)
  simp at hlengths
  omega

/-! ## 4. Below a directory above the start -/

/-- Below a run of `..`, normal forms begin with it. -/
theorem exists_toList_normalize_joinAll (h : IsDirectory directory 0 climbs names)
    (hclimbs : climbs ≠ 0) (hparts : ∀ part ∈ parts, IsPart part) (hne : parts ≠ []) :
    ∃ rest, (normalize (joinAll directory parts)).toList = '.' :: '.' :: rest := by
  obtain ⟨more, rfl⟩ := Nat.exists_eq_succ_of_ne_zero hclimbs
  have hname : HasName directory := by
    refine ⟨'.', ?_, by decide⟩
    rw [h.spelling_eq, written]
    exact List.mem_append_right _ ((infix_joinWith (List.mem_append_left _
      (List.mem_replicate.2 ⟨Nat.succ_ne_zero more, rfl⟩))).subset List.mem_cons_self)
  have hslashes : keptSlashes (joinAll directory parts) = 0 := by
    rw [keptSlashes_joinAll_of_hasName hname fun part hpart => (hparts part hpart).not_isAbsolute,
      h.keptSlashes_eq]
  have hdirectory : advance false [] directory
      = names.reverse ++ List.replicate (more + 1) ['.', '.'] := h.advance_eq
  rw [toList_normalize_of_ne (joinAll_ne_empty hparts hne _), ← bne_keptSlashes, hslashes,
    show ((0 : Nat) != 0) = false from rfl, reduce_segments_joinAll hparts, hdirectory,
    List.reverse_append, List.reverse_replicate, List.reverse_reverse, List.replicate_succ,
    List.cons_append, List.cons_append, spell, if_neg (by simp), List.replicate_zero, List.nil_append]
  generalize List.replicate more ['.', '.'] ++ names ++ _ = segs
  cases segs with
  | nil => exact ⟨[], rfl⟩
  | cons seg segs =>
    rw [joinWith_cons_cons]
    exact ⟨_, rfl⟩

end Path

end CodeAtlas
