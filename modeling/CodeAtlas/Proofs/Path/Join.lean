import CodeAtlas.Proofs.Path.Cancel

/-!
# Directories and joined paths

A directory is written as slashes in front of its segments (`written`), and `dirname` takes the last
segment off (`toList_dirname`). Reading a joined path goes on from where its first part has come to
(`advance_join`), and the first part decides which slashes stand in front (`keptSlashes_join`),
unless it is made of slashes and the second part opens with a backslash.
-/

namespace CodeAtlas.Path

open Text

variable {rooted : Bool} {segs stack : List Segment} {slashes : Nat} {path base part : String}

/-! ## 1. Directories as they are written -/

/-- Some slashes in front of some segments. Unlike a normal form it may be empty. -/
def written (slashes : Nat) (segs : List Segment) : List Char :=
  List.replicate slashes '/' ++ joinWith ['/'] segs

theorem written_singleton (slashes : Nat) (seg : Segment) :
    written slashes [seg] = List.replicate slashes '/' ++ seg := by
  rw [written, joinWith_singleton]

theorem written_concat (hne : segs ≠ []) (slashes : Nat) (seg : Segment) :
    written slashes (segs ++ [seg]) = written slashes segs ++ '/' :: seg := by
  rw [written, written, joinWith_append hne (List.cons_ne_nil seg []), joinWith_singleton,
    List.append_assoc]

theorem spell_eq_written (h : ¬ (slashes = 0 ∧ segs = [])) : spell slashes segs = written slashes segs :=
  if_neg h

/-- What is written ends with the last segment. -/
theorem getLast?_written (hnil : ∀ seg ∈ segs, seg ≠ []) (hslash : ∀ seg ∈ segs, '/' ∉ seg)
    (hne : segs ≠ []) : ∃ c, (written slashes segs).getLast? = some c ∧ c ≠ '/' := by
  obtain ⟨init, last, rfl⟩ : ∃ init last, segs = init ++ [last] :=
    ⟨segs.dropLast, segs.getLast hne, (List.dropLast_append_getLast hne).symm⟩
  have hlast : last ∈ init ++ [last] := by simp
  obtain ⟨front, c, rfl⟩ : ∃ front c, last = front ++ [c] :=
    ⟨_, _, (List.dropLast_append_getLast (hnil last hlast)).symm⟩
  have hc : c ≠ '/' := by
    rintro rfl
    exact hslash _ hlast (by simp)
  refine ⟨c, ?_, hc⟩
  by_cases hinit : init = []
  · rw [hinit, List.nil_append, written_singleton, ← List.append_assoc, List.getLast?_concat]
  · rw [written_concat hinit, ← List.cons_append, ← List.append_assoc, List.getLast?_concat]

/-- The text before its last slash, with the slash. -/
theorem reverse_dropWhile_append {last : List Char} (h : '/' ∉ last) (front : List Char)
    (hfront : front = [] ∨ front.getLast? = some '/') :
    ((front ++ last).reverse.dropWhile (· != '/')).reverse = front := by
  have hrest : front.reverse.dropWhile (· != '/') = front.reverse := by
    rcases hfront with rfl | hfront
    · rfl
    · obtain ⟨init, rfl⟩ := List.getLast?_eq_some_iff.1 hfront
      simp
  have hlast : ∀ c ∈ last.reverse, (c != '/') = true := bne_of_mem_reverse h
  rw [List.reverse_append, List.dropWhile_append_of_pos hlast, hrest, List.reverse_reverse]

/-- **The directory of a path** is written without its last segment. -/
theorem toList_dirname (hnil : ∀ seg ∈ segs, seg ≠ []) (hslash : ∀ seg ∈ segs, '/' ∉ seg)
    (h : path.toList = written slashes segs) :
    (dirname path).toList = written slashes segs.dropLast := by
  have hslashes : (List.replicate slashes '/').all (· == '/') = true := by simp
  have hopen : List.replicate slashes '/' = [] ∨
      (List.replicate slashes '/').getLast? = some '/' := by
    cases slashes with
    | zero => exact Or.inl rfl
    | succ n => simp [List.getLast?_replicate]
  by_cases hsegs : segs = []
  · subst hsegs
    have hpath : path.toList = List.replicate slashes '/' ++ [] := h
    rw [dirname, hpath, reverse_dropWhile_append List.not_mem_nil _ hopen]
    simp only [hslashes, if_true, String.toList_ofList]
    exact (List.append_nil _).symm
  · obtain ⟨init, last, rfl⟩ : ∃ init last, segs = init ++ [last] :=
      ⟨segs.dropLast, segs.getLast hsegs, (List.dropLast_append_getLast hsegs).symm⟩
    have hlast : '/' ∉ last := hslash last (by simp)
    rw [List.dropLast_concat]
    by_cases hinit : init = []
    · subst hinit
      have hpath : path.toList = List.replicate slashes '/' ++ last := by
        rw [h, List.nil_append, written_singleton]
      rw [dirname, hpath, reverse_dropWhile_append hlast _ hopen]
      simp only [hslashes, if_true, String.toList_ofList]
      exact (List.append_nil _).symm
    · have hpath : path.toList = (written slashes init ++ ['/']) ++ last := by
        rw [h, written_concat hinit, List.append_assoc, List.singleton_append]
      obtain ⟨c, hc, hne⟩ : ∃ c, (written slashes init).getLast? = some c ∧ c ≠ '/' :=
        getLast?_written (fun seg hseg => hnil seg (List.mem_append_left _ hseg))
          (fun seg hseg => hslash seg (List.mem_append_left _ hseg)) hinit
      obtain ⟨front, hfront⟩ := List.getLast?_eq_some_iff.1 hc
      -- only the slash after the last name of the directory goes
      have hall : (written slashes init ++ ['/']).all (· == '/') = false := by
        simp [hfront, hne]
      rw [dirname, hpath, reverse_dropWhile_append hlast _ (Or.inr (by simp))]
      simp only [hall, Bool.false_eq_true, if_false, String.toList_ofList]
      rw [dropEndWhile, List.reverse_append, hfront]
      simp [hne]

/-! ## 2. Reading joined paths -/

/-- The stack of a reduction after the segments of one more path. -/
def advance (rooted : Bool) (stack : List Segment) (path : String) : List Segment :=
  (segments path).foldl (pushSegment rooted) stack

theorem reverse_advance (rooted : Bool) (path : String) :
    (advance rooted [] path).reverse = reduce rooted (segments path) := rfl

theorem pushSegment_nil (rooted : Bool) (stack : List Segment) : pushSegment rooted stack [] = stack :=
  pushSegment_of_skipped (Or.inl rfl)

theorem advance_empty (rooted : Bool) (stack : List Segment) : advance rooted stack "" = stack :=
  pushSegment_nil rooted stack

theorem spelling_of_toList_append {a b : List Char} (h : path.toList = a ++ b) :
    spelling path = replaceChar '\\' '/' a ++ replaceChar '\\' '/' b := by
  rw [spelling, h, replaceChar, List.map_append]
  rfl

/-- **The three ways to join**: to nothing, behind a slash that is there, and behind a new one. -/
theorem join_cases (hpart : isAbsolute part = false) (base : String) :
    (base = "" ∧ join base part = part) ∨
      (∃ front, spelling base = front ++ ['/'] ∧
        spelling (join base part) = front ++ '/' :: spelling part) ∨
      ((∃ c, base.toList.getLast? = some c ∧ c ≠ '/') ∧
        spelling (join base part) = spelling base ++ '/' :: spelling part) := by
  by_cases hempty : base = ""
  · subst hempty
    refine Or.inl ⟨rfl, ?_⟩
    simp [join, hpart]
  · have hisEmpty : base.isEmpty = false := by simpa using hempty
    by_cases hlast : base.toList.getLast? = some '/'
    · obtain ⟨front, hfront⟩ := List.getLast?_eq_some_iff.1 hlast
      have hjoin : join base part = base ++ part := by simp [join, hpart, hlast]
      have hspelling : spelling base = replaceChar '\\' '/' front ++ ['/'] :=
        spelling_of_toList_append hfront
      refine Or.inr (Or.inl ⟨_, hspelling, ?_⟩)
      rw [hjoin, spelling_of_toList_append String.toList_append, ← spelling, ← spelling, hspelling,
        List.append_assoc, List.singleton_append]
    · have hjoin : join base part = base ++ "/" ++ part := by
        simp [join, hpart, hisEmpty, hlast]
      have hne : base.toList ≠ [] := by simpa using hempty
      have hgetLast := List.getLast?_eq_some_getLast hne
      refine Or.inr (Or.inr ⟨⟨_, hgetLast, fun hc => hlast (hc ▸ hgetLast)⟩, ?_⟩)
      rw [hjoin, spelling_of_toList_append String.toList_append,
        ← spelling, ← spelling, spelling_of_toList_append String.toList_append, ← spelling,
        List.append_assoc]
      rfl

/-- **A joined path leads on** from where its first part leads. -/
theorem advance_join (hpart : isAbsolute part = false) (rooted : Bool) (stack : List Segment)
    (base : String) :
    advance rooted stack (join base part) = advance rooted (advance rooted stack base) part := by
  rcases join_cases hpart base with ⟨rfl, hjoin⟩ | ⟨front, hbase, hjoin⟩ | ⟨-, hjoin⟩
  · rw [hjoin, advance_empty]
  · -- the empty segment behind the last slash is passed over
    have hskip : advance rooted stack base = (splitAt '/' front).foldl (pushSegment rooted) stack := by
      rw [advance, segments, hbase, splitAt_append, List.foldl_append]
      exact pushSegment_nil rooted _
    rw [hskip, advance, segments, hjoin, splitAt_append, List.foldl_append]
    rfl
  · rw [advance, segments, hjoin, splitAt_append, List.foldl_append]
    rfl

theorem advance_joinAll {parts : List String} (hparts : ∀ part ∈ parts, isAbsolute part = false)
    (rooted : Bool) (stack : List Segment) (base : String) :
    advance rooted stack (joinAll base parts)
      = parts.foldl (advance rooted) (advance rooted stack base) := by
  induction parts generalizing base with
  | nil => rfl
  | cons part parts ih =>
    have hrest := ih (fun p hp => hparts p (List.mem_cons_of_mem part hp)) (join base part)
    rw [advance_join (hparts part List.mem_cons_self)] at hrest
    exact hrest

/-! ## 3. Slashes in front of joined paths -/

/-- A path that is not made of slashes alone. -/
def HasName (path : String) : Prop :=
  ∃ c ∈ spelling path, c ≠ '/'

theorem keptSlashes_of_spelling_append (h : HasName base) {rest : List Char}
    (hpath : spelling path = spelling base ++ rest) : keptSlashes path = keptSlashes base := by
  have hlength : ((spelling base).takeWhile (· == '/')).length ≠ (spelling base).length := by
    intro hlength
    obtain ⟨c, hc, hne⟩ := h
    have hall := List.takeWhile_eq_self_iff.1
      ((List.takeWhile_sublist _).eq_of_length hlength) c hc
    exact hne (eq_of_beq hall)
  rw [keptSlashes, keptSlashes, hpath, List.takeWhile_append, if_neg hlength]

theorem exists_spelling_join (hpart : isAbsolute part = false) (base : String) :
    ∃ rest, spelling (join base part) = spelling base ++ rest := by
  rcases join_cases hpart base with ⟨rfl, hjoin⟩ | ⟨front, hbase, hjoin⟩ | ⟨-, hjoin⟩
  · exact ⟨spelling part, by rw [hjoin]; rfl⟩
  · exact ⟨spelling part, by rw [hjoin, hbase, List.append_assoc, List.singleton_append]⟩
  · exact ⟨_, hjoin⟩

theorem HasName.join (h : HasName base) (hpart : isAbsolute part = false) :
    HasName (join base part) := by
  obtain ⟨rest, hrest⟩ := exists_spelling_join hpart base
  obtain ⟨c, hc, hne⟩ := h
  exact ⟨c, by rw [hrest]; exact List.mem_append_left _ hc, hne⟩

theorem HasName.join_right (h : HasName part) (hpart : isAbsolute part = false) (base : String) :
    HasName (Path.join base part) := by
  obtain ⟨c, hc, hne⟩ := h
  refine ⟨c, ?_, hne⟩
  rcases join_cases hpart base with ⟨-, hjoin⟩ | ⟨front, -, hjoin⟩ | ⟨-, hjoin⟩ <;> rw [hjoin] <;> simp [hc]

theorem keptSlashes_joinAll_of_hasName {parts : List String} (h : HasName base)
    (hparts : ∀ part ∈ parts, isAbsolute part = false) :
    keptSlashes (joinAll base parts) = keptSlashes base := by
  induction parts generalizing base with
  | nil => rfl
  | cons part parts ih =>
    have hpart := hparts part List.mem_cons_self
    obtain ⟨rest, hrest⟩ := exists_spelling_join hpart base
    have htail := ih (h.join hpart) fun p hp => hparts p (List.mem_cons_of_mem part hp)
    exact htail.trans (keptSlashes_of_spelling_append h hrest)

/-- **A part that opens with no slash of either kind** leaves the slashes in front as they are. -/
theorem keptSlashes_join (hbase : HasName base ∨ '\\' ∉ base.toList)
    (hpart : (spelling part).head? ≠ some '/') (habsolute : isAbsolute part = false) :
    keptSlashes (join base part) = keptSlashes base := by
  by_cases hname : HasName base
  · obtain ⟨rest, hrest⟩ := exists_spelling_join habsolute base
    exact keptSlashes_of_spelling_append hname hrest
  · have hbase := hbase.resolve_left hname
    have hslashes : ∀ c ∈ base.toList, c = '/' := by
      intro c hc
      by_contra hne
      exact hname ⟨c, by rwa [spelling_of_notMem hbase], hne⟩
    have hnone : (spelling part).takeWhile (· == '/') = [] :=
      takeWhile_slash_of_ne fun rest hrest => hpart (by rw [hrest]; rfl)
    have hjoin : spelling (join base part) = base.toList ++ spelling part := by
      rcases join_cases habsolute base with
        ⟨rfl, hjoin⟩ | ⟨front, hfront, hjoin⟩ | ⟨⟨c, hlast, hne⟩, -⟩
      · rw [hjoin]
        rfl
      · rw [hjoin, ← spelling_of_notMem hbase, hfront, List.append_assoc, List.singleton_append]
      · -- a base of slashes ends with one
        exact absurd (hslashes c (List.mem_of_getLast? hlast)) hne
    have hbase' : base.toList.takeWhile (· == '/') = base.toList :=
      List.takeWhile_eq_self_iff.2 fun c hc => beq_iff_eq.2 (hslashes c hc)
    rw [keptSlashes, keptSlashes, hjoin, spelling_of_notMem hbase,
      List.takeWhile_append_of_pos fun c hc => beq_iff_eq.2 (hslashes c hc), hnone, hbase',
      List.append_nil]

/-- A part of a path that neither starts at the root nor climbs. -/
structure IsPart (part : String) : Prop where
  ne_empty : part ≠ ""
  notMem_slash : '/' ∉ part.toList
  isName : ∀ seg ∈ segments part, seg = [] ∨ IsName seg

theorem IsPart.not_isAbsolute (h : IsPart part) : isAbsolute part = false := by
  refine beq_eq_false_iff_ne.2 fun hhead => h.notMem_slash ?_
  exact List.mem_of_mem_head? hhead

theorem hasName_of_head?_ne (hne : part ≠ "") (hpart : (spelling part).head? ≠ some '/') :
    HasName part := by
  cases hspelling : spelling part with
  | nil =>
    have hnil : part.toList = [] := by simpa [spelling, replaceChar] using hspelling
    exact absurd (by simpa using hnil) hne
  | cons c rest =>
    rw [hspelling] at hpart
    exact ⟨c, by rw [hspelling]; exact List.mem_cons_self, fun hc => hpart (by rw [hc]; rfl)⟩

theorem HasName.joinAll {parts : List String} (h : HasName base)
    (hparts : ∀ part ∈ parts, isAbsolute part = false) : HasName (Path.joinAll base parts) := by
  induction parts generalizing base with
  | nil => exact h
  | cons part parts ih =>
    exact ih (h.join (hparts part List.mem_cons_self)) fun p hp =>
      hparts p (List.mem_cons_of_mem part hp)

/-- Several parts leave the slashes in front as they are if the first of them does. -/
theorem keptSlashes_joinAll {parts : List String} (hbase : HasName base ∨ '\\' ∉ base.toList)
    (hparts : ∀ part ∈ parts, part ≠ "" ∧ isAbsolute part = false)
    (hopen : ∀ part ∈ parts.head?, (spelling part).head? ≠ some '/') :
    keptSlashes (joinAll base parts) = keptSlashes base := by
  cases parts with
  | nil => rfl
  | cons part parts =>
    obtain ⟨hne, habsolute⟩ := hparts part List.mem_cons_self
    have hpart := hopen part rfl
    have hname := (hasName_of_head?_ne hne hpart).join_right habsolute base
    have hrest := keptSlashes_joinAll_of_hasName hname fun p hp =>
      (hparts p (List.mem_cons_of_mem part hp)).2
    exact hrest.trans (keptSlashes_join hbase hpart habsolute)

/-! ## 4. Stacks that climb -/

theorem foldl_climbs_of_le {names : List Segment} (hnames : ∀ name ∈ names, IsName name)
    (below : List Segment) {levels : Nat} (hle : levels ≤ names.length) :
    (List.replicate levels ['.', '.']).foldl (pushSegment rooted) (names ++ below)
      = names.drop levels ++ below := by
  induction levels generalizing names with
  | zero => rfl
  | succ levels ih =>
    cases names with
    | nil => simp at hle
    | cons name names =>
      have hpush : pushSegment rooted (name :: names ++ below) ['.', '.'] = names ++ below := by
        simp [pushSegment, (hnames name List.mem_cons_self).2.2]
      rw [List.replicate_succ, List.foldl_cons, hpush, List.drop_succ_cons]
      exact ih (fun n hn => hnames n (List.mem_cons_of_mem name hn)) (by simpa using hle)

/-- From the root there is no way further up. -/
theorem foldl_climbs_rooted {names : List Segment} (hnames : ∀ name ∈ names, IsName name)
    (levels : Nat) :
    (List.replicate levels ['.', '.']).foldl (pushSegment true) names = names.drop levels := by
  have htop : ∀ n : Nat, (List.replicate n ['.', '.']).foldl (pushSegment true) [] = [] := by
    intro n
    induction n with
    | zero => rfl
    | succ n ih => exact ih
  by_cases hle : levels ≤ names.length
  · have hall : (List.replicate levels ['.', '.']).foldl (pushSegment true) (names ++ [])
        = names.drop levels ++ [] := foldl_climbs_of_le hnames [] hle
    rwa [List.append_nil, List.append_nil] at hall
  · obtain ⟨more, rfl⟩ : ∃ more, levels = names.length + more :=
      ⟨levels - names.length, by omega⟩
    have hall : (List.replicate names.length ['.', '.']).foldl (pushSegment true) (names ++ [])
        = names.drop names.length ++ [] := foldl_climbs_of_le hnames [] (Nat.le_refl _)
    rw [List.append_nil, List.append_nil, List.drop_length] at hall
    rw [List.replicate_add, List.foldl_append, hall, htop, List.drop_eq_nil_of_le (by omega)]

/-- Without a root the climb goes on above the start. -/
theorem foldl_climbs_beyond {names : List Segment} (hnames : ∀ name ∈ names, IsName name)
    (climbs more : Nat) :
    (List.replicate (names.length + more) ['.', '.']).foldl (pushSegment false)
        (names ++ List.replicate climbs ['.', '.'])
      = List.replicate (climbs + more) ['.', '.'] := by
  have hall : (List.replicate names.length ['.', '.']).foldl (pushSegment false)
        (names ++ List.replicate climbs ['.', '.'])
      = names.drop names.length ++ List.replicate climbs ['.', '.'] :=
    foldl_climbs_of_le hnames _ (Nat.le_refl _)
  rw [List.drop_length, List.nil_append] at hall
  rw [List.replicate_add, List.foldl_append, hall, ← foldl_push_climbs climbs, ← List.foldl_append,
    ← List.replicate_add, foldl_push_climbs]

/-- Names and empty segments stay on a stack without the empty ones. -/
theorem foldl_push_of_forall (h : ∀ seg ∈ segs, seg = [] ∨ IsName seg) (stack : List Segment) :
    segs.foldl (pushSegment rooted) stack = (segs.filter (· ≠ [])).reverse ++ stack := by
  induction segs generalizing stack with
  | nil => rfl
  | cons seg segs ih =>
    rw [List.foldl_cons, ih fun s hs => h s (List.mem_cons_of_mem seg hs)]
    rcases h seg List.mem_cons_self with rfl | hname
    · simp [pushSegment_nil]
    · simp [pushSegment_of_name hname, hname.1]

end CodeAtlas.Path
