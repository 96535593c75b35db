import CodeAtlas.Path
import CodeAtlas.Proofs.Text.Split

/-!
# Normal paths

The segments that a normal path is made of are names, after a run of `..` if the path has no root
(`IsReduced`). Reducing segments gives such a list and leaves such a list as it is, and splitting
undoes joining, so the normal form of a path is its own normal form (`normalize_normalize`).
-/

namespace CodeAtlas.Path

open Text

/-! ## 1. Reduced segments -/

/-- A segment that names a file or a directory. -/
def IsName (seg : Segment) : Prop :=
  seg ≠ [] ∧ seg ≠ ['.'] ∧ seg ≠ ['.', '.']

/-- **Reduced segments**, the last on top: names above a run of `..`, which a rooted path does not
have. -/
def IsReduced (rooted : Bool) (stack : List Segment) : Prop :=
  ∃ names climbs, stack = names ++ List.replicate climbs ['.', '.'] ∧ (∀ seg ∈ names, IsName seg) ∧
    (rooted = true → climbs = 0)

variable {rooted : Bool} {stack : List Segment} {seg : Segment}

theorem isReduced_nil (rooted : Bool) : IsReduced rooted [] :=
  ⟨[], 0, rfl, fun _ h => absurd h List.not_mem_nil, fun _ => rfl⟩

theorem IsReduced.cons_name (h : IsReduced rooted stack) (hseg : IsName seg) :
    IsReduced rooted (seg :: stack) := by
  obtain ⟨names, climbs, rfl, hnames, hroot⟩ := h
  refine ⟨seg :: names, climbs, rfl, fun s hs => ?_, hroot⟩
  rcases List.mem_cons.1 hs with rfl | hs
  · exact hseg
  · exact hnames s hs

theorem pushSegment_of_skipped (h : seg = [] ∨ seg = ['.']) : pushSegment rooted stack seg = stack := by
  unfold pushSegment
  rcases h with rfl | rfl <;> rfl

theorem pushSegment_of_name (h : IsName seg) : pushSegment rooted stack seg = seg :: stack := by
  obtain ⟨hempty, hdot, hclimb⟩ := h
  unfold pushSegment
  rw [if_neg (by simp [hempty, hdot]), if_neg (by simp [hclimb])]

/-- `..` takes a name off, stays on top of another `..`, and goes nowhere from a root. -/
theorem pushSegment_climb (h : IsReduced rooted stack) :
    IsReduced rooted (pushSegment rooted stack ['.', '.']) := by
  obtain ⟨names, climbs, rfl, hnames, hroot⟩ := h
  cases names with
  | cons name names =>
    have hname := (hnames name List.mem_cons_self).2.2
    have hpush : pushSegment rooted (name :: names ++ List.replicate climbs ['.', '.']) ['.', '.']
        = names ++ List.replicate climbs ['.', '.'] := by
      simp [pushSegment, hname]
    rw [hpush]
    exact ⟨names, climbs, rfl, fun s hs => hnames s (List.mem_cons_of_mem name hs), hroot⟩
  | nil =>
    cases climbs with
    | zero =>
      cases rooted with
      | true => exact isReduced_nil true
      | false => exact ⟨[], 1, rfl, hnames, fun h => absurd h Bool.false_ne_true⟩
    | succ climbs =>
      have hpush : pushSegment rooted ([] ++ List.replicate (climbs + 1) ['.', '.']) ['.', '.']
          = [] ++ List.replicate (climbs + 2) ['.', '.'] := by
        simp [pushSegment, List.replicate_succ]
      rw [hpush]
      exact ⟨[], climbs + 2, rfl, hnames, fun h => absurd (hroot h) (Nat.succ_ne_zero climbs)⟩

/-- **One segment more keeps a stack reduced.** -/
theorem IsReduced.push (h : IsReduced rooted stack) (seg : Segment) :
    IsReduced rooted (pushSegment rooted stack seg) := by
  by_cases hskip : seg = [] ∨ seg = ['.']
  · rwa [pushSegment_of_skipped hskip]
  · rw [not_or] at hskip
    by_cases hclimb : seg = ['.', '.']
    · rw [hclimb]
      exact pushSegment_climb h
    · have hname : IsName seg := ⟨hskip.1, hskip.2, hclimb⟩
      rw [pushSegment_of_name hname]
      exact h.cons_name hname

theorem isReduced_foldl (h : IsReduced rooted stack) (segs : List Segment) :
    IsReduced rooted (segs.foldl (pushSegment rooted) stack) := by
  induction segs generalizing stack with
  | nil => exact h
  | cons seg segs ih => exact ih (h.push seg)

theorem isReduced_reverse_reduce (rooted : Bool) (segs : List Segment) :
    IsReduced rooted (reduce rooted segs).reverse := by
  rw [reduce, List.reverse_reverse]
  exact isReduced_foldl (isReduced_nil rooted) segs

/-! ## 2. Reducing again -/

theorem foldl_push_names {names : List Segment} (h : ∀ seg ∈ names, IsName seg)
    (stack : List Segment) :
    names.foldl (pushSegment rooted) stack = names.reverse ++ stack := by
  induction names generalizing stack with
  | nil => rfl
  | cons name names ih =>
    rw [List.foldl_cons, pushSegment_of_name (h name List.mem_cons_self),
      ih fun seg hseg => h seg (List.mem_cons_of_mem name hseg), List.reverse_cons,
      List.append_assoc, List.singleton_append]

/-- Without a root the run of `..` piles up. -/
theorem foldl_push_climbs (climbs : Nat) :
    (List.replicate climbs ['.', '.']).foldl (pushSegment false) []
      = List.replicate climbs ['.', '.'] := by
  induction climbs with
  | zero => rfl
  | succ climbs ih =>
    rw [List.replicate_succ', List.foldl_append, ih, List.foldl_cons, List.foldl_nil,
      ← List.replicate_succ']
    cases climbs with
    | zero => rfl
    | succ climbs => simp [pushSegment, List.replicate_succ]

/-- **Reduced segments stay as they are.** -/
theorem reduce_of_isReduced {segs : List Segment} (h : IsReduced rooted segs.reverse) :
    reduce rooted segs = segs := by
  obtain ⟨names, climbs, hsegs, hnames, hroot⟩ := h
  have hsegs : segs = List.replicate climbs ['.', '.'] ++ names.reverse := by
    have := congrArg List.reverse hsegs
    rwa [List.reverse_reverse, List.reverse_append, List.reverse_replicate] at this
  have hclimbs : (List.replicate climbs ['.', '.']).foldl (pushSegment rooted) []
      = List.replicate climbs ['.', '.'] := by
    cases rooted with
    | true => rw [hroot rfl]; rfl
    | false => exact foldl_push_climbs climbs
  have hnames' : ∀ seg ∈ names.reverse, IsName seg := fun seg hseg =>
    hnames seg (List.mem_reverse.1 hseg)
  rw [reduce, hsegs, List.foldl_append, hclimbs, foldl_push_names hnames', List.reverse_append,
    List.reverse_reverse, List.reverse_replicate]

/-- Empty segments in front make no difference. -/
theorem reduce_cons_nil (rooted : Bool) (segs : List Segment) :
    reduce rooted ([] :: segs) = reduce rooted segs := by
  rw [reduce, List.foldl_cons, pushSegment_of_skipped (Or.inl rfl), reduce]

/-! ## 3. Segments of a text -/

theorem mem_pushSegment {s : Segment} (h : s ∈ pushSegment rooted stack seg) :
    s ∈ stack ∨ s = seg := by
  unfold pushSegment at h
  split at h
  · exact Or.inl h
  · split at h
    · split at h
      · split at h
        · exact absurd h List.not_mem_nil
        · exact Or.inr (List.mem_singleton.1 h)
      · split at h
        · exact (List.mem_cons.1 h).symm
        · exact Or.inl (List.mem_cons_of_mem _ h)
    · exact (List.mem_cons.1 h).symm

/-- Reducing makes up no segments. -/
theorem mem_of_mem_reduce {segs : List Segment} {s : Segment} (h : s ∈ reduce rooted segs) :
    s ∈ segs := by
  have key : ∀ (segs stack : List Segment), s ∈ segs.foldl (pushSegment rooted) stack →
      s ∈ stack ∨ s ∈ segs := by
    intro segs
    induction segs with
    | nil => exact fun stack h => Or.inl h
    | cons seg segs ih =>
      intro stack h
      rcases ih _ h with h | h
      · rcases mem_pushSegment h with h | rfl
        · exact Or.inl h
        · exact Or.inr List.mem_cons_self
      · exact Or.inr (List.mem_cons_of_mem seg h)
  rw [reduce, List.mem_reverse] at h
  exact (key segs [] h).resolve_left List.not_mem_nil

theorem ne_nil_of_mem_reduce {segs : List Segment} {s : Segment} (h : s ∈ reduce rooted segs) :
    s ≠ [] := by
  obtain ⟨names, climbs, hstack, hnames, -⟩ := isReduced_reverse_reduce rooted segs
  have hmem : s ∈ names ++ List.replicate climbs ['.', '.'] := by
    rw [← hstack]
    exact List.mem_reverse.2 h
  rcases List.mem_append.1 hmem with hs | hs
  · exact (hnames s hs).1
  · rw [List.eq_of_mem_replicate hs]
    exact List.cons_ne_nil _ _

/-! ## 4. Normal forms -/

/-- The segments of the normal form of a text. -/
def normalSegments (cs : List Char) : List Segment :=
  reduce (rootSlashes cs != 0) (splitAt '/' cs)

/-- A path spelt with some slashes in front of its segments. -/
def spell (slashes : Nat) (segs : List Segment) : List Char :=
  if slashes = 0 ∧ segs = [] then ['.'] else List.replicate slashes '/' ++ joinWith ['/'] segs

/-- **What a normal path is spelt from**: two slashes at most, and reduced segments. -/
structure IsNormal (slashes : Nat) (segs : List Segment) : Prop where
  le_two : slashes ≤ 2
  isReduced : IsReduced (slashes != 0) segs.reverse
  notMem : ∀ seg ∈ segs, '/' ∉ seg

theorem normalizeChars_eq (cs : List Char) :
    normalizeChars cs = spell (rootSlashes cs) (normalSegments cs) := by
  have hbody : joinWith ['/'] (reduce (rootSlashes cs != 0) (splitAt '/' cs))
      = joinWith ['/'] (normalSegments cs) := rfl
  rw [normalizeChars, spell, hbody]
  split
  -- nothing is written only where there are neither slashes nor segments
  · rename_i hnil
    obtain ⟨hroot, hbody⟩ := List.append_eq_nil_iff.1 hnil
    rw [List.replicate_eq_nil_iff] at hroot
    refine (if_pos ⟨hroot, ?_⟩).symm
    cases hsegs : normalSegments cs with
    | nil => rfl
    | cons a segs =>
      have ha : a ≠ [] := ne_nil_of_mem_reduce (hsegs ▸ List.mem_cons_self : a ∈ normalSegments cs)
      rw [hsegs] at hbody
      cases segs with
      | nil => exact absurd hbody (by rwa [joinWith_singleton])
      | cons b segs =>
        rw [joinWith_cons_cons] at hbody
        exact absurd (List.append_eq_nil_iff.1 hbody).1 ha
  · rename_i hne
    refine (if_neg ?_).symm
    rintro ⟨hroot, hsegs⟩
    rw [hroot, hsegs] at hne
    exact hne rfl

theorem rootSlashes_le_two (cs : List Char) : rootSlashes cs ≤ 2 := by
  unfold rootSlashes
  split <;> omega

theorem isNormal_normalSegments (cs : List Char) : IsNormal (rootSlashes cs) (normalSegments cs) where
  le_two := rootSlashes_le_two cs
  isReduced := isReduced_reverse_reduce _ _
  notMem _ hseg := notMem_of_mem_splitAt (mem_of_mem_reduce hseg)

/-! ## 5. Reading a normal form -/

theorem rootSlashes_of_head_ne {cs : List Char} (h : cs.head? ≠ some '/') : rootSlashes cs = 0 := by
  unfold rootSlashes
  split
  · exact absurd rfl h
  · exact absurd rfl h
  · exact absurd rfl h
  · rfl

theorem rootSlashes_ne_zero {cs : List Char} (h : cs.head? = some '/') : rootSlashes cs ≠ 0 := by
  cases cs with
  | nil => cases h
  | cons c cs =>
    cases h
    unfold rootSlashes
    split
    · exact Nat.one_ne_zero
    · exact Nat.succ_ne_zero 1
    · exact Nat.one_ne_zero
    · rename_i hnone
      exact absurd rfl (hnone cs)

theorem rootSlashes_replicate_append {n : Nat} (hn : n ≤ 2) {body : List Char}
    (h : body.head? ≠ some '/') : rootSlashes (List.replicate n '/' ++ body) = n := by
  match n, hn with
  | 0, _ => exact rootSlashes_of_head_ne h
  | 1, _ =>
    cases body with
    | nil => rfl
    | cons c body =>
      have hc : c ≠ '/' := fun hc => h (by rw [hc]; rfl)
      simp [rootSlashes, List.replicate, hc]
  | 2, _ =>
    cases body with
    | nil => rfl
    | cons c body =>
      have hc : c ≠ '/' := fun hc => h (by rw [hc]; rfl)
      simp [rootSlashes, List.replicate, hc]

theorem splitAt_replicate_append (n : Nat) (body : List Char) :
    splitAt '/' (List.replicate n '/' ++ body) = List.replicate n [] ++ splitAt '/' body := by
  induction n with
  | zero => rfl
  | succ n ih =>
    have hcons : splitAt '/' ('/' :: (List.replicate n '/' ++ body))
        = [] :: splitAt '/' (List.replicate n '/' ++ body) :=
      splitAt_append_sep List.not_mem_nil _
    rw [List.replicate_succ, List.cons_append, hcons, ih, List.replicate_succ, List.cons_append]

theorem reduce_replicate_append (rooted : Bool) (n : Nat) (segs : List Segment) :
    reduce rooted (List.replicate n [] ++ segs) = reduce rooted segs := by
  induction n with
  | zero => rfl
  | succ n ih => rw [List.replicate_succ, List.cons_append, reduce_cons_nil, ih]

namespace IsNormal

variable {slashes : Nat} {segs : List Segment}

theorem ne_nil_of_mem (h : IsNormal slashes segs) {s : Segment} (hs : s ∈ segs) : s ≠ [] := by
  rw [← reduce_of_isReduced h.isReduced] at hs
  exact ne_nil_of_mem_reduce hs

/-- No segment is empty, so what follows the slashes in front starts with none. -/
theorem head?_joinWith_ne (h : IsNormal slashes segs) :
    (joinWith ['/'] segs).head? ≠ some '/' := by
  cases segs with
  | nil => simp
  | cons a segs =>
    have hslash := h.notMem a List.mem_cons_self
    cases a with
    | nil => exact absurd rfl (h.ne_nil_of_mem List.mem_cons_self)
    | cons c a =>
      have hc : c ≠ '/' := fun hc => hslash (by rw [hc]; exact List.mem_cons_self)
      cases segs with
      | nil => simpa using hc
      | cons b segs =>
        rw [joinWith_cons_cons]
        simpa using hc

theorem rootSlashes_spell (h : IsNormal slashes segs) : rootSlashes (spell slashes segs) = slashes := by
  unfold spell
  split
  · rename_i hdot
    rw [hdot.1]
    rfl
  · exact rootSlashes_replicate_append h.le_two h.head?_joinWith_ne

theorem normalSegments_spell (h : IsNormal slashes segs) :
    normalSegments (spell slashes segs) = segs := by
  rw [normalSegments, h.rootSlashes_spell]
  unfold spell
  split
  · rename_i hdot
    rw [hdot.1, hdot.2]
    rfl
  · rw [splitAt_replicate_append, reduce_replicate_append]
    by_cases hnil : segs = []
    · rw [hnil]
      exact reduce_cons_nil _ []
    · rw [splitAt_joinWith hnil h.notMem, reduce_of_isReduced h.isReduced]

/-- **A path spelt in this way is normal.** -/
theorem normalizeChars_spell (h : IsNormal slashes segs) :
    normalizeChars (spell slashes segs) = spell slashes segs := by
  rw [normalizeChars_eq, h.rootSlashes_spell, h.normalSegments_spell]

end IsNormal

theorem normalizeChars_normalizeChars (cs : List Char) :
    normalizeChars (normalizeChars cs) = normalizeChars cs := by
  rw [normalizeChars_eq cs, (isNormal_normalSegments cs).normalizeChars_spell]

/-! ## 6. Normal texts -/

/-- A normal form is made of characters of the text, slashes and dots. -/
theorem mem_of_mem_normalizeChars {cs : List Char} {c : Char} (h : c ∈ normalizeChars cs) :
    c = '/' ∨ c = '.' ∨ c ∈ cs := by
  rw [normalizeChars_eq, spell] at h
  split at h
  · exact Or.inr (Or.inl (List.mem_singleton.1 h))
  · rcases List.mem_append.1 h with h | h
    · exact Or.inl (List.eq_of_mem_replicate h)
    · rcases mem_joinWith h with rfl | ⟨seg, hseg, hc⟩
      · exact Or.inl rfl
      · exact Or.inr (Or.inr (mem_of_mem_splitAt (mem_of_mem_reduce hseg) hc))

theorem normalizeChars_ne_nil (cs : List Char) : normalizeChars cs ≠ [] := by
  unfold normalizeChars
  dsimp only
  split
  · exact List.cons_ne_nil _ _
  · rename_i h
    exact fun hnil => h hnil

theorem notMem_replaceChar {old new : Char} (h : old ≠ new) (cs : List Char) :
    old ∉ replaceChar old new cs := by
  intro hmem
  obtain ⟨c, -, hc⟩ := List.mem_map.1 hmem
  split at hc
  · exact h hc.symm
  · rename_i hne
    exact hne (beq_iff_eq.2 hc)

theorem replaceChar_of_notMem {old new : Char} {cs : List Char} (h : old ∉ cs) :
    replaceChar old new cs = cs := by
  unfold replaceChar
  rw [List.map_congr_left (g := id), List.map_id]
  intro c hc
  refine if_neg fun heq => h ?_
  rwa [← eq_of_beq heq]

theorem notMem_backslash_normalizeChars {cs : List Char} (h : '\\' ∉ cs) :
    '\\' ∉ normalizeChars cs := by
  intro hmem
  rcases mem_of_mem_normalizeChars hmem with hc | hc | hc
  · exact absurd hc (by decide)
  · exact absurd hc (by decide)
  · exact h hc

theorem normalize_of_isEmpty {path : String} (h : path.isEmpty = true) : normalize path = path :=
  if_pos h

theorem toList_normalize {path : String} (h : ¬ path.isEmpty = true) :
    (normalize path).toList = normalizeChars (replaceChar '\\' '/' path.toList) := by
  rw [normalize, if_neg h, String.toList_ofList]

/-- A path whose text is a normal form is normal. -/
theorem normalize_of_toList {path : String} {cs : List Char} (hcs : '\\' ∉ cs)
    (h : path.toList = normalizeChars cs) : normalize path = path := by
  have hne : ¬ path.isEmpty = true := by
    intro hempty
    rw [String.isEmpty_iff] at hempty
    rw [hempty] at h
    exact normalizeChars_ne_nil cs h.symm
  rw [← String.toList_inj, toList_normalize hne, h,
    replaceChar_of_notMem (notMem_backslash_normalizeChars hcs), normalizeChars_normalizeChars]

/-- **A normal path is its own normal form.** -/
theorem normalize_normalize (path : String) : normalize (normalize path) = normalize path := by
  by_cases h : path.isEmpty = true
  · rw [normalize_of_isEmpty h, normalize_of_isEmpty h]
  · exact normalize_of_toList (notMem_replaceChar (by decide) path.toList) (toList_normalize h)

/-! ## 7. Normal paths are no addresses -/

/-- Two slashes stand in front of a normal path only. -/
theorem not_prefix_normalizeChars {a rest : List Char} (hne : a ≠ []) (ha : '/' ∉ a) (cs : List Char) :
    a ++ '/' :: '/' :: rest ≠ normalizeChars cs := by
  intro heq
  have hnormal := isNormal_normalSegments cs
  rw [normalizeChars_eq] at heq
  have hslashes : rootSlashes cs = 0 := by
    rw [← hnormal.rootSlashes_spell, ← heq]
    refine rootSlashes_of_head_ne ?_
    cases a with
    | nil => exact absurd rfl hne
    | cons c a => simpa using fun hc => ha (by rw [hc]; exact List.mem_cons_self)
  have hsplit := congrArg (splitAt '/') heq
  have hrest : splitAt '/' ('/' :: rest) = [] :: splitAt '/' rest :=
    splitAt_append_sep List.not_mem_nil rest
  rw [splitAt_append_sep ha, hrest, hslashes, spell] at hsplit
  split at hsplit
  · rename_i hdot
    cases hsplit
  · rename_i hdot
    have hsegs : normalSegments cs ≠ [] := fun hnil => hdot ⟨rfl, hnil⟩
    rw [List.replicate_zero, List.nil_append, splitAt_joinWith hsegs hnormal.notMem] at hsplit
    -- an empty segment would stand between the two slashes
    have hempty : [] ∈ normalSegments cs := by
      rw [← hsplit]
      exact List.mem_cons_of_mem a List.mem_cons_self
    exact hnormal.ne_nil_of_mem hempty rfl

/-- **No normal path is an address.** -/
theorem dropStart?_normalize (path : String) :
    dropStart? ['f', 'i', 'l', 'e', ':', '/', '/'] (normalize path).toList = none := by
  unfold dropStart?
  refine if_neg fun hprefix => ?_
  obtain ⟨rest, hrest⟩ := List.isPrefixOf_iff_prefix.1 hprefix
  by_cases h : path.isEmpty = true
  · rw [normalize_of_isEmpty h, String.isEmpty_iff.1 h] at hrest
    cases hrest
  · rw [toList_normalize h] at hrest
    exact not_prefix_normalizeChars (a := ['f', 'i', 'l', 'e', ':']) (List.cons_ne_nil _ _)
      (by decide) _ hrest

end CodeAtlas.Path
