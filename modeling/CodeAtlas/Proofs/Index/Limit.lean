import CodeAtlas.Proofs.Dedup
import CodeAtlas.Proofs.Index.Discovery

/-!
# The limit of a search for source files

What a search has found after some paths is said by their canonical names alone: of the wanted ones
among them, each once, as many as the limit allows (`Discovery.Tracks`). One more path keeps this
(`Discovery.Tracks.visit`), hence a listing and a sequence of listings do. So a search with a limit
finds the first of the files that a search without one finds, and these are the wanted files that some
pattern lists, in the order in which they are listed first (`Discovery.files_run_limit`).
-/

namespace CodeAtlas.Discovery

variable {view : FileView} {isExcluded : String → Bool}

/-! ## 1. The order of first occurrences -/

/-- What is left of a list without repetitions stands in the order of first occurrences. -/
theorem pairwise_idxOf_eraseDups (names : List String) :
    names.eraseDups.Pairwise fun p q => names.idxOf p < names.idxOf q := by
  induction names using List.reverseRecOn with
  | nil => exact List.Pairwise.nil
  | append_singleton names name ih =>
    -- an occurrence at the end changes nothing for names that are there before
    have hold : names.eraseDups.Pairwise fun p q =>
        (names ++ [name]).idxOf p < (names ++ [name]).idxOf q := by
      refine ih.imp_of_mem fun {p q} hp hq hlt => ?_
      rw [List.idxOf_append_of_mem (List.mem_eraseDups.1 hp),
        List.idxOf_append_of_mem (List.mem_eraseDups.1 hq)]
      exact hlt
    by_cases hname : name ∈ names
    · rw [Traversal.eraseDups_concat_of_mem hname]
      exact hold
    · rw [Traversal.eraseDups_concat_of_notMem hname, List.pairwise_append]
      refine ⟨hold, List.pairwise_singleton _ _, ?_⟩
      intro p hp q hq
      have hpnames : p ∈ names := List.mem_eraseDups.1 hp
      rw [List.mem_singleton.1 hq, List.idxOf_append_of_mem hpnames,
        List.idxOf_append_of_notMem hname]
      have := List.idxOf_lt_length_of_mem hpnames
      omega

/-- **Where a file is listed first**: the number of the first listing that names it, and its place in
that listing. -/
def place (listings : List (List String)) (p : String) : Nat × Nat :=
  let first := listings.findIdx (·.contains p)
  (first, (listings.getD first []).idxOf p)

/-- **One file is listed before another**: in an earlier listing, or earlier in the same. -/
def Precedes (listings : List (List String)) (p q : String) : Prop :=
  (place listings p).1 < (place listings q).1 ∨
    (place listings p).1 = (place listings q).1 ∧ (place listings p).2 < (place listings q).2

theorem place_cons_of_mem {listing : List String} {p : String} (h : p ∈ listing)
    (listings : List (List String)) : place (listing :: listings) p = (0, listing.idxOf p) := by
  have hcontains : listing.contains p = true := List.contains_iff_mem.2 h
  simp only [place, List.findIdx_cons, hcontains, cond_true, List.getD_cons_zero]

theorem place_cons_of_notMem {listing : List String} {p : String} (h : p ∉ listing)
    (listings : List (List String)) :
    place (listing :: listings) p = ((place listings p).1 + 1, (place listings p).2) := by
  have hcontains : listing.contains p = false := by
    rw [← Bool.not_eq_true, List.contains_iff_mem]
    exact h
  simp only [place, List.findIdx_cons, hcontains, cond_false, List.getD_cons_succ]

/-- Going through the listings one after the other comes to files in their order. -/
theorem precedes_of_idxOf_lt {listings : List (List String)} {p q : String}
    (hp : p ∈ listings.flatten) (hlt : listings.flatten.idxOf p < listings.flatten.idxOf q) :
    Precedes listings p q := by
  induction listings with
  | nil => exact absurd hp List.not_mem_nil
  | cons listing listings ih =>
    rw [List.flatten_cons] at hp hlt
    unfold Precedes
    by_cases hpl : p ∈ listing
    · rw [place_cons_of_mem hpl]
      by_cases hql : q ∈ listing
      · rw [List.idxOf_append_of_mem hpl, List.idxOf_append_of_mem hql] at hlt
        rw [place_cons_of_mem hql]
        exact Or.inr ⟨rfl, hlt⟩
      · rw [place_cons_of_notMem hql]
        exact Or.inl (Nat.succ_pos _)
    · rw [List.idxOf_append_of_notMem hpl] at hlt
      have hprest : p ∈ listings.flatten := (List.mem_append.1 hp).resolve_left hpl
      by_cases hql : q ∈ listing
      -- a file of the first listing would come first
      · have hfirst := List.idxOf_lt_length_of_mem hql
        rw [List.idxOf_append_of_mem hql] at hlt
        omega
      · rw [List.idxOf_append_of_notMem hql] at hlt
        rw [place_cons_of_notMem hpl, place_cons_of_notMem hql]
        have hrest : Precedes listings p q := ih hprest (by omega)
        unfold Precedes at hrest
        dsimp only
        omega

/-! ## 2. What a search keeps track of -/

/-- A file is looked for: no pattern leaves it out, and its extension is recognised. -/
def isWanted (view : FileView) (isExcluded : String → Bool) (p : String) : Bool :=
  !isExcluded (view.relative p) && (Language.ofPath? p).isSome

/-- The wanted files among some names, each once. -/
def wanted (view : FileView) (isExcluded : String → Bool) (names : List String) : List String :=
  names.eraseDups.filter (isWanted view isExcluded)

theorem wanted_concat_of_mem {names : List String} {p : String} (h : p ∈ names) :
    wanted view isExcluded (names ++ [p]) = wanted view isExcluded names := by
  rw [wanted, Traversal.eraseDups_concat_of_mem h]
  rfl

theorem wanted_concat_of_isWanted {names : List String} {p : String} (h : p ∉ names)
    (hwanted : isWanted view isExcluded p = true) :
    wanted view isExcluded (names ++ [p]) = wanted view isExcluded names ++ [p] := by
  rw [wanted, Traversal.eraseDups_concat_of_notMem h, List.filter_append,
    List.filter_cons_of_pos hwanted, List.filter_nil]
  rfl

theorem wanted_concat_of_not_isWanted {names : List String} {p : String}
    (hwanted : ¬ isWanted view isExcluded p = true) :
    wanted view isExcluded (names ++ [p]) = wanted view isExcluded names := by
  by_cases h : p ∈ names
  · exact wanted_concat_of_mem h
  · rw [wanted, Traversal.eraseDups_concat_of_notMem h, List.filter_append,
      List.filter_cons_of_neg hwanted, List.filter_nil, List.append_nil]
    rfl

variable (view isExcluded) in
/-- More names only add files at the end. -/
theorem wanted_prefix_append (names more : List String) :
    wanted view isExcluded names <+: wanted view isExcluded (names ++ more) := by
  have hfirst := Traversal.prefix_firstByKey (fun name : String => name)
    (List.prefix_append names more)
  exact hfirst.filter _

/-- **What a search has found after some names.** Once the limit has kept a file out, it is of no
matter any more which files have been seen. -/
structure Tracks (view : FileView) (isExcluded : String → Bool) (limit : Int) (names : List String)
    (found : Discovery) : Prop where
  files : found.files = (wanted view isExcluded names).take limit.toNat
  isCut : found.isCut = true ↔ limit.toNat < (wanted view isExcluded names).length
  seen : found.isCut = false → found.seen = names.eraseDups

variable {limit : Int} {names : List String} {found : Discovery}

theorem tracks_nil : Tracks view isExcluded limit [] {} where
  files := (List.take_nil).symm
  isCut := iff_of_false Bool.false_ne_true (Nat.not_lt_zero _)
  seen := fun _ => rfl

/-- After a cut nothing is found any more. -/
theorem Tracks.append_of_isCut (h : Tracks view isExcluded limit names found)
    (hcut : found.isCut = true) (more : List String) :
    Tracks view isExcluded limit (names ++ more) found where
  files := by
    obtain ⟨rest, hrest⟩ := wanted_prefix_append view isExcluded names more
    have hfull := h.isCut.1 hcut
    rw [h.files, ← hrest, List.take_append_of_le_length (Nat.le_of_lt hfull)]
  isCut := by
    have hmore := (wanted_prefix_append view isExcluded names more).length_le
    have hfull := h.isCut.1 hcut
    exact iff_of_true hcut (by omega)
  seen := fun hopen => absurd (hcut.symm.trans hopen) Bool.noConfusion

/-- What is looked at already is passed over. -/
theorem visit_of_mem_seen {path : String} (h : view.canonical path ∈ found.seen) :
    visit view (.ok isExcluded) limit found path = .ok found := by
  have hseen : found.seen.contains (view.canonical path) = true := List.contains_iff_mem.2 h
  simp only [Discovery.visit, hseen, Bool.or_true, if_true]

/-- A file that is looked at for the first time is noted, and found if it is wanted and the limit
allows it. -/
theorem visit_of_notMem_seen {path : String} (hopen : found.isCut = false)
    (h : view.canonical path ∉ found.seen) :
    visit view (.ok isExcluded) limit found path = .ok
      (if isWanted view isExcluded (view.canonical path) = true then
        if limit ≤ found.files.length then
          { found with seen := found.seen ++ [view.canonical path], isCut := true }
        else
          { found with seen := found.seen ++ [view.canonical path]
                       files := found.files ++ [view.canonical path] }
      else { found with seen := found.seen ++ [view.canonical path] }) := by
  have hseen : found.seen.contains (view.canonical path) = false := by
    rw [← Bool.not_eq_true, List.contains_iff_mem]
    exact h
  have hwanted : (isExcluded (view.relative (view.canonical path)) ||
      (Language.ofPath? (view.canonical path)).isNone) = !isWanted view isExcluded (view.canonical path) := by
    rw [isWanted, Bool.not_and, Bool.not_not, Option.not_isSome]
  simp only [Discovery.visit, hopen, hseen, Bool.or_false, Bool.false_eq_true, if_false, hwanted,
    Except.map]
  cases isWanted view isExcluded (view.canonical path) with
  | true => rfl
  | false => rfl

/-- As long as the limit has kept nothing out, all that is wanted has been found. -/
theorem Tracks.files_of_open (h : Tracks view isExcluded limit names found) (hopen : found.isCut = false) :
    found.files = wanted view isExcluded names ∧ (wanted view isExcluded names).length ≤ limit.toNat := by
  have hroom : (wanted view isExcluded names).length ≤ limit.toNat :=
    Nat.not_lt.1 (mt h.isCut.2 (Bool.eq_false_iff.1 hopen))
  rw [h.files, List.take_of_length_le hroom]
  exact ⟨rfl, hroom⟩

/-- A name that is not wanted, or not for the first time, leaves what is found alone. -/
theorem Tracks.concat_of_same (h : Tracks view isExcluded limit names found) {name : String}
    (hsame : wanted view isExcluded (names ++ [name]) = wanted view isExcluded names) {seen : List String}
    (hseen : seen = (names ++ [name]).eraseDups) :
    Tracks view isExcluded limit (names ++ [name]) { found with seen } :=
  ⟨hsame ▸ h.files, hsame ▸ h.isCut, fun _ => hseen⟩

/-- A name that is wanted for the first time is found, unless the limit keeps it out. -/
theorem Tracks.concat_of_isWanted (h : Tracks view isExcluded limit names found)
    (hopen : found.isCut = false) {name : String} (hname : name ∉ names)
    (hwanted : isWanted view isExcluded name = true) {seen : List String}
    (hseen : seen = (names ++ [name]).eraseDups) :
    Tracks view isExcluded limit (names ++ [name])
      (if limit ≤ found.files.length then { found with seen, isCut := true }
      else { found with seen, files := found.files ++ [name] }) := by
  obtain ⟨hfiles, hroom⟩ := h.files_of_open hopen
  have hmore := wanted_concat_of_isWanted hname hwanted
  by_cases hfull : limit ≤ found.files.length
  · rw [if_pos hfull]
    have hlength : (wanted view isExcluded names).length = limit.toNat := by
      rw [hfiles] at hfull
      omega
    refine ⟨?_, ?_, fun h => absurd h Bool.noConfusion⟩
    · rw [hmore, ← hlength, List.take_left]
      exact hfiles
    · rw [hmore, List.length_append, hlength]
      exact iff_of_true rfl (Nat.lt_succ_self _)
  · rw [if_neg hfull]
    have hlength : (wanted view isExcluded names).length + 1 ≤ limit.toNat := by
      rw [hfiles] at hfull
      omega
    refine ⟨?_, ?_, fun _ => hseen⟩
    · rw [hmore, List.take_of_length_le (by rwa [List.length_append]), ← hfiles]
    · rw [hmore, List.length_append]
      exact iff_of_false (Bool.eq_false_iff.1 hopen) (Nat.not_lt.2 hlength)

/-- **One more path keeps track.** -/
theorem Tracks.visit (h : Tracks view isExcluded limit names found) (path : String) :
    ∃ found', visit view (.ok isExcluded) limit found path = .ok found' ∧
      Tracks view isExcluded limit (names ++ [view.canonical path]) found' := by
  by_cases hcut : found.isCut = true
  · refine ⟨found, ?_, h.append_of_isCut hcut _⟩
    simp only [Discovery.visit, hcut, Bool.true_or, if_true]
  have hopen : found.isCut = false := Bool.eq_false_iff.2 hcut
  have hseen : found.seen = names.eraseDups := h.seen hopen
  by_cases hmem : view.canonical path ∈ names
  · refine ⟨found, visit_of_mem_seen ?_, h.concat_of_same (wanted_concat_of_mem hmem) ?_⟩
    · rw [hseen, List.mem_eraseDups]
      exact hmem
    · rw [hseen, Traversal.eraseDups_concat_of_mem hmem]
  have hnew : view.canonical path ∉ found.seen := by
    rw [hseen, List.mem_eraseDups]
    exact hmem
  have hnoted : found.seen ++ [view.canonical path]
      = (names ++ [view.canonical path]).eraseDups := by
    rw [hseen, Traversal.eraseDups_concat_of_notMem hmem]
  refine ⟨_, visit_of_notMem_seen hopen hnew, ?_⟩
  by_cases hwanted : isWanted view isExcluded (view.canonical path) = true
  · rw [if_pos hwanted]
    exact h.concat_of_isWanted hopen hmem hwanted hnoted
  · rw [if_neg hwanted]
    exact h.concat_of_same (wanted_concat_of_not_isWanted hwanted) hnoted

/-- A whole listing keeps track. -/
theorem Tracks.foldlM_visit (h : Tracks view isExcluded limit names found) (paths : List String) :
    ∃ found', paths.foldlM (Discovery.visit view (.ok isExcluded) limit) found = .ok found' ∧
      Tracks view isExcluded limit (names ++ paths.map view.canonical) found' := by
  induction paths generalizing names found with
  | nil =>
    rw [List.map_nil, List.append_nil]
    exact ⟨found, rfl, h⟩
  | cons path paths ih =>
    obtain ⟨next, hnext, htracks⟩ := h.visit path
    obtain ⟨last, hlast, hall⟩ := ih htracks
    rw [List.append_assoc, List.singleton_append, ← List.map_cons] at hall
    refine ⟨last, ?_, hall⟩
    rw [List.foldlM_cons, hnext]
    exact hlast

/-- The listings of some patterns keep track. None is read after a cut. -/
theorem Tracks.foldlM_visitPattern {listing : String → List String} {patterns : List String}
    (h : Tracks view isExcluded limit names found)
    (hlist : ∀ pattern ∈ patterns, view.list pattern = .ok (listing pattern)) :
    ∃ found', patterns.foldlM (visitPattern view (.ok isExcluded) limit) found = .ok found' ∧
      Tracks view isExcluded limit
        (names ++ (patterns.map fun pattern => (listing pattern).map view.canonical).flatten)
        found' := by
  induction patterns generalizing names found with
  | nil =>
    rw [List.map_nil, List.flatten_nil, List.append_nil]
    exact ⟨found, rfl, h⟩
  | cons pattern patterns ih =>
    have hstep : ∃ next, visitPattern view (.ok isExcluded) limit found pattern = .ok next ∧
        Tracks view isExcluded limit (names ++ (listing pattern).map view.canonical) next := by
      unfold visitPattern
      by_cases hcut : found.isCut = true
      · rw [if_pos hcut]
        exact ⟨found, rfl, h.append_of_isCut hcut _⟩
      · rw [if_neg hcut, hlist pattern List.mem_cons_self]
        exact h.foldlM_visit (listing pattern)
    obtain ⟨next, hnext, htracks⟩ := hstep
    obtain ⟨last, hlast, hall⟩ :=
      ih htracks fun p hp => hlist p (List.mem_cons_of_mem pattern hp)
    rw [List.append_assoc, ← List.flatten_cons] at hall
    refine ⟨last, ?_, hall⟩
    rw [List.foldlM_cons, hnext]
    exact hlast

/-! ## 3. Whole searches -/

section Search

variable (view) (isExcluded) (listing : String → List String) (options : DiscoveryOptions)

/-- What the patterns of a search list, one listing for each, and every file under its canonical
name. -/
def listings : List (List String) :=
  options.includePatterns.map fun pattern => (listing pattern).map view.canonical

/-- **All files that a search is after**: each once, those that some pattern lists, that no pattern
leaves out and whose extension is recognised, in the order in which they are listed first. -/
structure IsFullList (all : List String) : Prop where
  nodup : all.Nodup
  mem_iff : ∀ p, p ∈ all ↔
    (∃ pattern ∈ options.includePatterns, ∃ path ∈ listing pattern, view.canonical path = p) ∧
      isExcluded (view.relative p) = false ∧ (Language.ofPath? p).isSome = true
  inOrder : all.Pairwise (Precedes (listings view listing options))

end Search

variable {listing : String → List String} {options : DiscoveryOptions}

theorem isFullList_wanted :
    IsFullList view isExcluded listing options
      (wanted view isExcluded (listings view listing options).flatten) where
  nodup := (Traversal.nodup_eraseDups _).filter _
  mem_iff p := by
    rw [wanted, List.mem_filter, List.mem_eraseDups, isWanted, Bool.and_eq_true,
      Bool.not_eq_true', listings]
    simp only [List.mem_flatten, List.mem_map, exists_exists_and_eq_and]
  inOrder := by
    refine List.Pairwise.filter _ ?_
    refine (pairwise_idxOf_eraseDups _).imp_of_mem fun {p q} hp _ hlt => ?_
    exact precedes_of_idxOf_lt (List.mem_eraseDups.1 hp) hlt

/-- **A search with a limit finds the first of the files that one without finds**, as many as the
limit says and none if it is negative. Where the limit cuts nothing, these are all files that the
search is after. -/
theorem files_run_limit {engine : Glob.Engine}
    (hexcludes : engine.compile options.excludePatterns = .ok isExcluded)
    (hlist : ∀ pattern ∈ options.includePatterns, view.list pattern = .ok (listing pattern)) :
    ∃ all, IsFullList view isExcluded listing options all ∧ ∀ limit : Int,
      ∃ found, run view { options with maxFiles := limit } engine = .ok found ∧
        found.files = all.take (max limit 0).toNat ∧
        (found.isCut = true ↔ max limit 0 < all.length) := by
  refine ⟨_, isFullList_wanted, fun limit => ?_⟩
  have hstart : Tracks view isExcluded limit [] {} := tracks_nil
  obtain ⟨found, hfound, htracks⟩ := hstart.foldlM_visitPattern hlist
  rw [List.nil_append] at htracks
  have hlimit : (max limit 0).toNat = limit.toNat := by omega
  refine ⟨found, ?_, ?_, ?_⟩
  · have hexcludes' : engine.compile
        { options with maxFiles := limit }.excludePatterns = .ok isExcluded := hexcludes
    rw [run, hexcludes']
    exact hfound
  · rw [hlimit]
    exact htracks.files
  · rw [htracks.isCut, listings]
    omega

/-- Two source files, a generated one and a text. -/
def mixedStore : MemoryStore :=
  .ofFiles "/" [("/src/a.ts", ""), ("/src/gen/b.ts", ""), ("/lib/c.py", ""), ("/README.md", "")]

/-- A search for what lies in `lib` and for all scripts, but for nothing generated. -/
def mixedOptions : DiscoveryOptions :=
  { includes := ["lib/**", "**/*.\x7bpy,ts\x7d"], excludes := ["gen"] }

/-- What a pattern lists of the store, if it can be read. -/
def mixedListing (pattern : String) : List String :=
  (mixedStore.view.list pattern).toOption.getD []

/-- The file of the first pattern comes first, and a limit of one leaves it alone. -/
theorem files_run_limit_mixedStore :
    (∀ pattern ∈ mixedOptions.includePatterns,
      mixedStore.view.list pattern = .ok (mixedListing pattern)) ∧
    ∃ isExcluded, Glob.gitignore.compile mixedOptions.excludePatterns = .ok isExcluded ∧
      IsFullList mixedStore.view isExcluded mixedListing mixedOptions ["/lib/c.py", "/src/a.ts"] ∧
      ∃ found, run mixedStore.view { mixedOptions with maxFiles := 1 } = .ok found ∧
        found.files = ["/lib/c.py"] ∧ found.isCut = true := by
  have hlist : ∀ pattern ∈ mixedOptions.includePatterns,
      mixedStore.view.list pattern = .ok (mixedListing pattern) := by
    have hread : ∀ pattern ∈ mixedOptions.includePatterns,
        (mixedStore.view.list pattern).toOption.isSome = true := by
      decide +kernel
    intro pattern hpattern
    obtain ⟨paths, hpaths⟩ := Outcome.exists_of_isSome_toOption (hread pattern hpattern)
    rw [mixedListing, hpaths]
    rfl
  obtain ⟨isExcluded, hexcludes⟩ : ∃ isExcluded,
      Glob.gitignore.compile mixedOptions.excludePatterns = .ok isExcluded := by
    apply Outcome.exists_of_isSome_toOption
    decide +kernel
  obtain ⟨all, hfull, hlimit⟩ := files_run_limit hexcludes hlist
  -- a limit of two cuts nothing, so what is found under it is all
  have htwo : (run mixedStore.view { mixedOptions with maxFiles := 2 }).toOption.map
      (fun found => (found.files, found.isCut)) = some (["/lib/c.py", "/src/a.ts"], false) := by
    decide +kernel
  obtain ⟨two, hrun, hfiles, hcut⟩ := hlimit 2
  rw [hrun] at htwo
  obtain ⟨htwofiles, htwocut⟩ := Prod.mk.inj (Option.some.inj htwo)
  have hall : all = ["/lib/c.py", "/src/a.ts"] := by
    have hshort : all.length ≤ (max (2 : Int) 0).toNat := by
      have := mt hcut.2 (by rw [htwocut]; exact Bool.false_ne_true)
      omega
    rw [List.take_of_length_le hshort] at hfiles
    exact hfiles.symm.trans htwofiles
  subst hall
  obtain ⟨one, hone, honefiles, honecut⟩ := hlimit 1
  exact ⟨hlist, isExcluded, hexcludes, hfull, one, hone, honefiles, honecut.2 (by decide)⟩

end CodeAtlas.Discovery
