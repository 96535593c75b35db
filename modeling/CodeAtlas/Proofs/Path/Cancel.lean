import CodeAtlas.Proofs.Path.Place
import CodeAtlas.Proofs.Store.Directory
import Mathlib.Logic.Relation

/-!
# Cancelling segments

The segments of a path may be cancelled one step at a time and in any order: an empty or dot segment
is dropped, a name goes together with the `..` after it, and `..` at the root goes nowhere. The
stack that a normal form is read off does this from left to right. That makes no difference, since
every step leaves the reduction of the segments as it is (`reduce_eq_of_cancels`), so cancelling
comes to one end, which is the reduction (`cancelsTo_iff`). What a normal form says of its path is
then said by cancelling alone (`isCanonicalForm_normalize`).
-/

namespace CodeAtlas.Path

variable {rooted : Bool} {segs stack result next : List Segment}

/-! ## 1. Steps -/

/-- **One step of cancelling.** -/
inductive Cancels (rooted : Bool) : List Segment → List Segment → Prop
  /-- A segment that leads nowhere is dropped. -/
  | skip (before after : List Segment) {seg : Segment} (h : seg = [] ∨ seg = ['.']) :
      Cancels rooted (before ++ seg :: after) (before ++ after)
  /-- A name goes with the `..` after it. -/
  | climb (before after : List Segment) {name : Segment} (h : IsName name) :
      Cancels rooted (before ++ name :: ['.', '.'] :: after) (before ++ after)
  /-- Above the root there is nothing to climb to. -/
  | top (after : List Segment) (h : rooted = true) : Cancels rooted (['.', '.'] :: after) after

/-- **What cancelling comes to**: nothing is left of it that could be cancelled. -/
structure CancelsTo (rooted : Bool) (segs result : List Segment) : Prop where
  steps : Relation.ReflTransGen (Cancels rooted) segs result
  isFinal : ∀ next, ¬ Cancels rooted result next

theorem length_lt_of_cancels (h : Cancels rooted segs next) : next.length < segs.length := by
  cases h <;> simp only [List.length_append, List.length_cons] <;> omega

/-- What a step cancels, the stack passes over. -/
theorem reduce_eq_of_cancels (h : Cancels rooted segs next) :
    reduce rooted segs = reduce rooted next := by
  cases h with
  | skip before after hseg =>
    simp only [reduce, List.foldl_append, List.foldl_cons, pushSegment_of_skipped hseg]
  | @climb before after name hname =>
    -- the name is on top of the stack when the `..` after it comes
    have hpush : ∀ stack : List Segment,
        pushSegment rooted (pushSegment rooted stack name) ['.', '.'] = stack := by
      intro stack
      rw [pushSegment_of_name hname]
      simp [pushSegment, hname.2.2]
    simp only [reduce, List.foldl_append, List.foldl_cons, hpush]
  | top after hroot =>
    subst hroot
    rfl

/-! ## 2. The stack cancels -/

/-- One segment more on a stack is a step of cancelling, or none is needed. -/
theorem reflTransGen_pushSegment (h : IsReduced rooted stack) (seg : Segment)
    (after : List Segment) :
    Relation.ReflTransGen (Cancels rooted) (stack.reverse ++ seg :: after)
      ((pushSegment rooted stack seg).reverse ++ after) := by
  rcases skipped_or_climb_or_isName seg with hskip | rfl | hname
  · rw [pushSegment_of_skipped hskip]
    exact Relation.ReflTransGen.single (.skip stack.reverse after hskip)
  · obtain ⟨names, climbs, rfl, hnames, hroot⟩ := h
    cases names with
    | cons name names =>
      have hname := hnames name List.mem_cons_self
      have hstep : Cancels rooted _ _ :=
        .climb (names ++ List.replicate climbs ['.', '.']).reverse after hname
      have hpush : pushSegment rooted (name :: names ++ List.replicate climbs ['.', '.']) ['.', '.']
          = names ++ List.replicate climbs ['.', '.'] := by
        simp [pushSegment, hname.2.2]
      rw [hpush]
      simpa using Relation.ReflTransGen.single hstep
    | nil =>
      cases climbs with
      | zero =>
        cases rooted with
        | true => exact Relation.ReflTransGen.single (.top after rfl)
        | false => exact Relation.ReflTransGen.refl
      | succ climbs =>
        -- without a root the run of `..` grows by one
        have hpush : pushSegment rooted ([] ++ List.replicate (climbs + 1) ['.', '.']) ['.', '.']
            = ['.', '.'] :: List.replicate (climbs + 1) ['.', '.'] := by
          simp [pushSegment, List.replicate_succ]
        rw [hpush, List.reverse_cons, List.append_assoc, List.singleton_append, List.nil_append]
  · rw [pushSegment_of_name hname, List.reverse_cons, List.append_assoc, List.singleton_append]

/-- **The reduction is reached by cancelling.** -/
theorem reflTransGen_reduce (rooted : Bool) (segs : List Segment) :
    Relation.ReflTransGen (Cancels rooted) segs (reduce rooted segs) := by
  have key : ∀ (segs stack : List Segment), IsReduced rooted stack →
      Relation.ReflTransGen (Cancels rooted) (stack.reverse ++ segs)
        (segs.foldl (pushSegment rooted) stack).reverse := by
    intro segs
    induction segs with
    | nil =>
      intro stack _
      rw [List.append_nil, List.foldl_nil]
    | cons seg segs ih =>
      intro stack h
      exact (reflTransGen_pushSegment h seg segs).trans (ih _ (h.push seg))
  exact key segs [] (isReduced_nil rooted)

theorem reduce_eq_of_reflTransGen (h : Relation.ReflTransGen (Cancels rooted) segs next) :
    reduce rooted segs = reduce rooted next := by
  induction h with
  | refl => rfl
  | tail _ hstep ih => rw [ih, reduce_eq_of_cancels hstep]

theorem length_le_of_reflTransGen (h : Relation.ReflTransGen (Cancels rooted) segs next) :
    next.length ≤ segs.length := by
  induction h with
  | refl => exact Nat.le_refl _
  | tail _ hstep ih =>
    have := length_lt_of_cancels hstep
    omega

theorem reduce_reduce (rooted : Bool) (segs : List Segment) :
    reduce rooted (reduce rooted segs) = reduce rooted segs :=
  reduce_of_isReduced (isReduced_reverse_reduce rooted segs)

/-! ## 3. One end -/

/-- **Nothing of a reduction can be cancelled**: its own reduction would be shorter. -/
theorem not_cancels_reduce (rooted : Bool) (segs next : List Segment) :
    ¬ Cancels rooted (reduce rooted segs) next := by
  intro h
  have hreduce : reduce rooted next = reduce rooted segs := by
    rw [← reduce_eq_of_cancels h, reduce_reduce]
  have hlt := length_lt_of_cancels h
  have hle := length_le_of_reflTransGen (reflTransGen_reduce rooted next)
  rw [hreduce] at hle
  omega

/-- **Cancelling comes to one end**, whichever way it goes. -/
theorem cancelsTo_iff : CancelsTo rooted segs result ↔ result = reduce rooted segs := by
  constructor
  · rintro ⟨hsteps, hfinal⟩
    -- the end cannot be reduced any further
    rcases Relation.ReflTransGen.cases_head (reflTransGen_reduce rooted result) with
      heq | ⟨next, hnext, -⟩
    · rw [heq, reduce_eq_of_reflTransGen hsteps]
    · exact absurd hnext (hfinal next)
  · rintro rfl
    exact ⟨reflTransGen_reduce rooted segs, not_cancels_reduce rooted segs⟩

theorem existsUnique_cancelsTo (rooted : Bool) (segs : List Segment) :
    ∃! result, CancelsTo rooted segs result :=
  ⟨reduce rooted segs, cancelsTo_iff.2 rfl, fun _ h => cancelsTo_iff.1 h⟩

/-! ## 4. Slashes in front -/

/-- The slashes that a path keeps in front: none and two are kept, any other number is one. -/
def keptSlashes (path : String) : Nat :=
  match ((spelling path).takeWhile (· == '/')).length with
  | 0 => 0
  | 2 => 2
  | _ => 1

theorem takeWhile_slash_of_ne {cs : List Char} (h : ∀ rest, cs ≠ '/' :: rest) :
    cs.takeWhile (· == '/') = [] := by
  cases cs with
  | nil => rfl
  | cons c cs =>
    have hc : c ≠ '/' := fun hc => h cs (by rw [hc])
    simp [hc]

theorem rootSlashes_spelling (path : String) : rootSlashes (spelling path) = keptSlashes path := by
  unfold rootSlashes keptSlashes
  split
  · rename_i hcs
    simp [hcs]
  · rename_i rest hthree hcs
    have hrest : rest.takeWhile (· == '/') = [] :=
      takeWhile_slash_of_ne fun more hmore => hthree more (by rw [hmore])
    simp [hcs, hrest]
  · rename_i rest _ htwo hcs
    have hrest : rest.takeWhile (· == '/') = [] :=
      takeWhile_slash_of_ne fun more hmore => htwo more (by rw [hmore])
    simp [hcs, hrest]
  · rename_i hone
    have hnone := takeWhile_slash_of_ne fun more hmore => hone more hmore
    simp [hnone]

theorem bne_keptSlashes (path : String) : (keptSlashes path != 0) = isRooted path := by
  rw [← rootSlashes_spelling, isRooted, Bool.eq_iff_iff, bne_iff_ne, beq_iff_eq]
  exact rootSlashes_ne_zero_iff

theorem keptSlashes_le_two (path : String) : keptSlashes path ≤ 2 := by
  rw [← rootSlashes_spelling]
  exact rootSlashes_le_two _

/-! ## 5. The normal form -/

/-- **A canonical form of paths**, said by cancelling alone. -/
structure IsCanonicalForm (form : String → String) : Prop where
  /-- The form of a path is spelt from what cancelling its segments comes to: plain names, behind
  slashes that are kept or, without any, behind a run of `..`. -/
  spelt : ∀ path, path ≠ "" → ∃ climbs names,
    (form path).toList
        = spell (keptSlashes path) (List.replicate climbs ['.', '.'] ++ names) ∧
      (∀ name ∈ names, IsPlain name) ∧
      (keptSlashes path ≠ 0 → climbs = 0) ∧
      CancelsTo (isRooted path) (segments path) (List.replicate climbs ['.', '.'] ++ names)
  notMem_backslash : ∀ path, '\\' ∉ (form path).toList
  idempotent : ∀ path, form (form path) = form path
  /-- Cancelling comes to one end, whichever way it goes. -/
  confluent : ∀ rooted segs, ∃! result, CancelsTo rooted segs result
  /-- Paths that keep the same slashes have one form exactly if cancelling makes their segments
  equal. -/
  eq_iff : ∀ a b, a ≠ "" → b ≠ "" → keptSlashes a = keptSlashes b →
    (form a = form b ↔ ∃ result, CancelsTo (isRooted a) (segments a) result ∧
      CancelsTo (isRooted b) (segments b) result)

variable {path a b : String}

theorem normalSegments_spelling (path : String) :
    normalSegments (spelling path) = reduce (isRooted path) (segments path) := by
  rw [normalSegments, rootSlashes_spelling, bne_keptSlashes, segments]

theorem toList_normalize_of_ne (h : path ≠ "") :
    (normalize path).toList
      = spell (keptSlashes path) (reduce (isRooted path) (segments path)) := by
  have hempty : ¬ path.isEmpty = true := mt String.isEmpty_iff.1 h
  rw [toList_normalize hempty, ← spelling, normalizeChars_eq, normalSegments_spelling,
    rootSlashes_spelling]

/-- Reduced segments, from the first to the last. -/
theorem exists_reduce_eq (path : String) :
    ∃ climbs names, reduce (isRooted path) (segments path)
        = List.replicate climbs ['.', '.'] ++ names ∧
      (∀ name ∈ names, IsPlain name) ∧ (keptSlashes path ≠ 0 → climbs = 0) := by
  obtain ⟨names, climbs, hstack, hnames, hroot⟩ :=
    isReduced_reverse_reduce (isRooted path) (segments path)
  have hreduce : reduce (isRooted path) (segments path)
      = List.replicate climbs ['.', '.'] ++ names.reverse := by
    have := congrArg List.reverse hstack
    rwa [List.reverse_reverse, List.reverse_append, List.reverse_replicate] at this
  refine ⟨climbs, names.reverse, hreduce, fun name hname => ?_, fun hslashes => hroot ?_⟩
  · -- no segment of a path holds a slash of either kind
    have hmem : name ∈ reduce (isRooted path) (segments path) := by
      rw [hreduce]
      exact List.mem_append_right _ hname
    have hchars := notMem_of_mem_segments (mem_of_mem_reduce hmem)
    exact ⟨hnames name (List.mem_reverse.1 hname), hchars⟩
  · rw [← bne_keptSlashes]
    exact bne_iff_ne.2 hslashes

theorem isNormal_reduce (path : String) :
    IsNormal (keptSlashes path) (reduce (isRooted path) (segments path)) := by
  have h := isNormal_normalSegments (spelling path)
  rwa [rootSlashes_spelling, normalSegments_spelling] at h

/-- Behind the same slashes, a normal form tells the reduced segments. -/
theorem normalize_eq_iff (ha : a ≠ "") (hb : b ≠ "") (hslashes : keptSlashes a = keptSlashes b) :
    normalize a = normalize b ↔
      reduce (isRooted a) (segments a) = reduce (isRooted b) (segments b) := by
  rw [← String.toList_inj, toList_normalize_of_ne ha, toList_normalize_of_ne hb]
  constructor
  · intro heq
    have hsegs := congrArg normalSegments heq
    rwa [(isNormal_reduce a).normalSegments_spell, (isNormal_reduce b).normalSegments_spell]
      at hsegs
  · intro heq
    rw [heq, hslashes]

/-- A normal form tells the slashes that its path keeps. -/
theorem keptSlashes_eq_of_normalize (ha : a ≠ "") (hb : b ≠ "") (h : normalize a = normalize b) :
    keptSlashes a = keptSlashes b := by
  have hslashes := congrArg (fun path => rootSlashes path.toList) h
  simp only [toList_normalize_of_ne ha, toList_normalize_of_ne hb] at hslashes
  rwa [(isNormal_reduce a).rootSlashes_spell, (isNormal_reduce b).rootSlashes_spell] at hslashes

/-- **The normal form of paths is canonical.** -/
theorem isCanonicalForm_normalize : IsCanonicalForm normalize where
  spelt path h := by
    obtain ⟨climbs, names, hreduce, hnames, hroot⟩ := exists_reduce_eq path
    refine ⟨climbs, names, ?_, hnames, hroot, cancelsTo_iff.2 hreduce.symm⟩
    rw [toList_normalize_of_ne h, hreduce]
  notMem_backslash := notMem_backslash_normalize
  idempotent := normalize_normalize
  confluent := existsUnique_cancelsTo
  eq_iff a b ha hb hslashes := by
    rw [normalize_eq_iff ha hb hslashes]
    constructor
    · intro heq
      exact ⟨_, cancelsTo_iff.2 rfl, cancelsTo_iff.2 heq⟩
    · rintro ⟨result, hresulta, hresultb⟩
      rw [← cancelsTo_iff.1 hresulta, ← cancelsTo_iff.1 hresultb]

example : normalize "//src\\./models//../a.ts" = "//src/a.ts" := by decide +kernel

end CodeAtlas.Path
