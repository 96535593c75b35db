import CodeAtlas.Proofs.Path.Normal
import Mathlib.Data.List.Induction

/-!
# Where a path leads

Read segment by segment, a path leads from a directory to a place (`follow`). Normal forms lead
where their paths do: the normal form of a path from the top spells the place that the path leads
to (`toList_normalize_of_isRooted`), and that of any other path leads from every directory to where
the path itself does (`follow_segments_normalize`). Whether there is a file at a place, or a
directory on the way to it, makes no difference.
-/

namespace CodeAtlas.Path

open Text

variable {place stack segs : List Segment} {seg : Segment}

/-! ## 1. Places -/

/-- The place that a segment leads to. A place is the names on the way to it, the last first; above
the top there is nothing. -/
def enter (place : List Segment) (seg : Segment) : List Segment :=
  if seg = [] ∨ seg = ['.'] then place
  else if seg = ['.', '.'] then place.tail
  else seg :: place

/-- **The place that segments lead to**, one after the other. -/
def follow (place segs : List Segment) : List Segment :=
  segs.foldl enter place

theorem enter_of_skipped (h : seg = [] ∨ seg = ['.']) : enter place seg = place :=
  if_pos h

theorem enter_climb (place : List Segment) : enter place ['.', '.'] = place.tail := rfl

theorem enter_of_name (h : IsName seg) : enter place seg = seg :: place := by
  obtain ⟨hempty, hdot, hclimb⟩ := h
  rw [enter, if_neg (not_or.2 ⟨hempty, hdot⟩), if_neg hclimb]

/-- A segment is skipped, climbs or is a name. -/
theorem skipped_or_climb_or_isName (seg : Segment) :
    (seg = [] ∨ seg = ['.']) ∨ seg = ['.', '.'] ∨ IsName seg := by
  by_cases hskip : seg = [] ∨ seg = ['.']
  · exact Or.inl hskip
  · by_cases hclimb : seg = ['.', '.']
    · exact Or.inr (Or.inl hclimb)
    · rw [not_or] at hskip
      exact Or.inr (Or.inr ⟨hskip.1, hskip.2, hclimb⟩)

theorem follow_append (place a b : List Segment) :
    follow place (a ++ b) = follow (follow place a) b :=
  List.foldl_append

theorem follow_singleton (place : List Segment) (seg : Segment) :
    follow place [seg] = enter place seg := rfl

theorem follow_names {names : List Segment} (h : ∀ seg ∈ names, IsName seg)
    (place : List Segment) : follow place names = names.reverse ++ place := by
  induction names generalizing place with
  | nil => rfl
  | cons name names ih =>
    have hrest := ih (fun seg hseg => h seg (List.mem_cons_of_mem name hseg)) (name :: place)
    rw [follow, List.foldl_cons, enter_of_name (h name List.mem_cons_self), ← follow, hrest,
      List.reverse_cons, List.append_assoc, List.singleton_append]

/-- Places are made of names, and segments bring no others. -/
theorem of_mem_enter {p : Segment → Prop} (hplace : ∀ s ∈ place, IsName s ∧ p s) (hseg : p seg) :
    ∀ s ∈ enter place seg, IsName s ∧ p s := by
  intro s hs
  rcases skipped_or_climb_or_isName seg with hskip | rfl | hname
  · rw [enter_of_skipped hskip] at hs
    exact hplace s hs
  · exact hplace s (List.mem_of_mem_tail hs)
  · rw [enter_of_name hname] at hs
    rcases List.mem_cons.1 hs with rfl | hs
    · exact ⟨hname, hseg⟩
    · exact hplace s hs

theorem of_mem_follow {p : Segment → Prop} (hplace : ∀ s ∈ place, IsName s ∧ p s)
    (hsegs : ∀ seg ∈ segs, p seg) : ∀ s ∈ follow place segs, IsName s ∧ p s := by
  induction segs generalizing place with
  | nil => exact hplace
  | cons seg segs ih =>
    exact ih (of_mem_enter hplace (hsegs seg List.mem_cons_self))
      fun s hs => hsegs s (List.mem_cons_of_mem seg hs)

/-! ## 2. Reduced segments lead to the same place -/

/-- At the top the stack of a reduction is the place itself. -/
theorem pushSegment_of_isName (h : ∀ s ∈ stack, IsName s) (seg : Segment) :
    pushSegment true stack seg = enter stack seg := by
  rcases skipped_or_climb_or_isName seg with hskip | rfl | hname
  · rw [pushSegment_of_skipped hskip, enter_of_skipped hskip]
  · cases stack with
    | nil => rfl
    | cons top below =>
      have htop := (h top List.mem_cons_self).2.2
      simp [pushSegment, enter_climb, htop]
  · rw [pushSegment_of_name hname, enter_of_name hname]

/-- **From the top, reducing segments gives the place that they lead to.** -/
theorem reduce_rooted (segs : List Segment) : reduce true segs = (follow [] segs).reverse := by
  have key : ∀ (segs stack : List Segment), (∀ s ∈ stack, IsName s) →
      segs.foldl (pushSegment true) stack = follow stack segs := by
    intro segs
    induction segs with
    | nil => exact fun stack _ => rfl
    | cons seg segs ih =>
      intro stack h
      have hnames : ∀ s ∈ enter stack seg, IsName s := fun s hs =>
        (of_mem_enter (p := fun _ => True) (fun s hs => ⟨h s hs, trivial⟩) trivial s hs).1
      rw [List.foldl_cons, pushSegment_of_isName h, ih _ hnames]
      rfl
  rw [reduce, key segs [] fun s hs => absurd hs List.not_mem_nil]

/-- One segment more on a stack leads one segment further. -/
theorem follow_pushSegment (h : IsReduced false stack) (place : List Segment) (seg : Segment) :
    follow place (pushSegment false stack seg).reverse = enter (follow place stack.reverse) seg := by
  rcases skipped_or_climb_or_isName seg with hskip | rfl | hname
  · rw [pushSegment_of_skipped hskip, enter_of_skipped hskip]
  · obtain ⟨names, climbs, rfl, hnames, -⟩ := h
    cases names with
    -- a name on top is taken off again, and so is where it leads
    | cons name names =>
      have hname := hnames name List.mem_cons_self
      have hpush : pushSegment false (name :: names ++ List.replicate climbs ['.', '.']) ['.', '.']
          = names ++ List.replicate climbs ['.', '.'] := by
        simp [pushSegment, hname.2.2]
      rw [hpush, List.cons_append, List.reverse_cons, follow_append, follow_singleton,
        enter_of_name hname, enter_climb, List.tail_cons]
    | nil =>
      have hpush : pushSegment false ([] ++ List.replicate climbs ['.', '.']) ['.', '.']
          = ['.', '.'] :: List.replicate climbs ['.', '.'] := by
        cases climbs with
        | zero => rfl
        | succ climbs => simp [pushSegment, List.replicate_succ]
      rw [hpush, List.nil_append, List.reverse_cons, follow_append, follow_singleton]
  · rw [pushSegment_of_name hname, List.reverse_cons, follow_append, follow_singleton]

/-- **Elsewhere, the reduced segments lead where the segments do.** -/
theorem follow_reduce (place segs : List Segment) :
    follow place (reduce false segs) = follow place segs := by
  induction segs using List.reverseRecOn with
  | nil => rfl
  | append_singleton segs seg ih =>
    have hreduced := isReduced_foldl (isReduced_nil false) segs
    rw [reduce, List.foldl_append, List.foldl_cons, List.foldl_nil,
      follow_pushSegment hreduced place seg, ← reduce, ih, follow_append, follow_singleton]

/-! ## 3. Texts -/

/-- The characters of a path, with slashes for backslashes. -/
def spelling (path : String) : List Char :=
  replaceChar '\\' '/' path.toList

/-- The segments of a path, with slashes of either kind between them. -/
def segments (path : String) : List Segment :=
  splitAt '/' (spelling path)

/-- Whether a path starts at the top of the disk. -/
def isRooted (path : String) : Bool :=
  (spelling path).head? == some '/'

variable {path : String}

theorem notMem_of_mem_segments (h : seg ∈ segments path) : '/' ∉ seg ∧ '\\' ∉ seg :=
  ⟨notMem_of_mem_splitAt h,
    fun hc => notMem_replaceChar (by decide) path.toList (mem_of_mem_splitAt h hc)⟩

theorem spelling_of_notMem (h : '\\' ∉ path.toList) : spelling path = path.toList :=
  replaceChar_of_notMem h

theorem rootSlashes_ne_zero_iff {cs : List Char} : rootSlashes cs ≠ 0 ↔ cs.head? = some '/' :=
  ⟨fun h => by_contra fun hhead => h (rootSlashes_of_head_ne hhead), rootSlashes_ne_zero⟩

/-- The normal form of a path has no backslash. -/
theorem notMem_backslash_normalize (path : String) : '\\' ∉ (normalize path).toList := by
  by_cases hempty : path.isEmpty = true
  · rw [normalize_of_isEmpty hempty, String.isEmpty_iff.1 hempty]
    exact List.not_mem_nil
  · rw [toList_normalize hempty]
    exact notMem_backslash_normalizeChars (notMem_replaceChar (by decide) _)

theorem spelling_of_isEmpty (h : path.isEmpty = true) : spelling path = [] := by
  rw [String.isEmpty_iff.1 h]
  rfl

/-- **The normal form of a path from the top** spells the place that it leads to. -/
theorem toList_normalize_of_isRooted (h : isRooted path = true) :
    (normalize path).toList
      = spell (rootSlashes (spelling path)) (follow [] (segments path)).reverse := by
  have hhead : (spelling path).head? = some '/' := eq_of_beq h
  have hempty : ¬ path.isEmpty = true := by
    intro hempty
    rw [spelling_of_isEmpty hempty] at hhead
    cases hhead
  have hrooted : (rootSlashes (spelling path) != 0) = true :=
    bne_iff_ne.2 (rootSlashes_ne_zero_iff.2 hhead)
  rw [toList_normalize hempty, normalizeChars_eq, normalSegments, ← spelling, hrooted,
    reduce_rooted, ← segments]

/-- **The normal form of any other path** has no slash in front and leads where the path does. -/
theorem follow_segments_normalize (h : isRooted path = false) (place : List Segment) :
    isRooted (normalize path) = false ∧
      follow place (segments (normalize path)) = follow place (segments path) := by
  by_cases hempty : path.isEmpty = true
  · rw [normalize_of_isEmpty hempty]
    exact ⟨h, rfl⟩
  · have hslashes : rootSlashes (spelling path) = 0 := by
      refine rootSlashes_of_head_ne fun hhead => ?_
      rw [isRooted, hhead, beq_self_eq_true] at h
      cases h
    have hnormal : IsNormal 0 (reduce false (segments path)) := by
      have := isNormal_normalSegments (spelling path)
      rwa [hslashes, normalSegments, hslashes] at this
    have hspell : spelling (normalize path) = spell 0 (reduce false (segments path)) := by
      rw [spelling_of_notMem (notMem_backslash_normalize path), toList_normalize hempty,
        normalizeChars_eq, normalSegments, ← spelling, hslashes]
      rfl
    have hhead : (spell 0 (reduce false (segments path))).head? ≠ some '/' := by
      have hzero := hnormal.rootSlashes_spell
      exact fun hhead => rootSlashes_ne_zero_iff.2 hhead hzero
    refine ⟨?_, ?_⟩
    · rw [isRooted, hspell]
      exact beq_eq_false_iff_ne.2 hhead
    · rw [segments, hspell, spell]
      split
      -- the path leads nowhere else, and is spelt with a dot
      · rename_i hdot
        rw [← follow_reduce place (segments path), hdot.2]
        rfl
      · rename_i hdot
        have hne : reduce false (segments path) ≠ [] := fun hnil => hdot ⟨rfl, hnil⟩
        rw [List.replicate_zero, List.nil_append, splitAt_joinWith hne hnormal.notMem,
          follow_reduce]

end CodeAtlas.Path
