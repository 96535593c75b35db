import CodeAtlas.Glob.Brace
import CodeAtlas.Proofs.Text.Split

/-!
# What braces mean

The expansion of braces rewrites texts: of the groups without a group inside the leftmost gives way
to one of its alternatives. Patterns are given here as trees instead (`Braced`), whose language is
what choosing an alternative for every group can give (`Braced.Means`).

The lemma that carries the file is that a pattern can be expanded in any context, as long as nothing
before it closes a group (`Braced.expandChars_append`): its own groups come first, and what the rest
of the text is expanded to does not depend on how they were written. So the expansion of a pattern
is its language, with repetitions where a group that holds another is not chosen
(`Braced.expansions`), and the product of its groups where none holds another
(`expandBraces_meaning`).
-/

namespace CodeAtlas.Glob

open Text

/-! ## 1. Groups in texts -/

/-- **A text holds a group**: a brace is opened, and the next brace closes it. -/
def HasGroup (cs : List Char) : Prop :=
  ∃ head body tail, cs = head ++ '\x7b' :: (body ++ '\x7d' :: tail) ∧ ∀ c ∈ body, isBrace c = false

/-- What is found in a text that starts with some other character. -/
theorem findGroup?_cons_of_ne {c : Char} (h : c ≠ '\x7b') (rest : List Char) :
    findGroup? (c :: rest) = (findGroup? rest).map fun (head, body, tail) => (c :: head, body, tail) := by
  have hc : (c == '\x7b') = false := beq_eq_false_iff_ne.2 h
  simp only [findGroup?, hc, Bool.false_eq_true, if_false]

/-- What is found in a text that starts with a brace which the next brace does not close. -/
theorem findGroup?_cons_of_open {rest : List Char}
    (h : (rest.dropWhile (!isBrace ·)).head? ≠ some '\x7d') :
    findGroup? ('\x7b' :: rest)
      = (findGroup? rest).map fun (head, body, tail) => ('\x7b' :: head, body, tail) := by
  simp only [findGroup?, beq_self_eq_true, if_true]
  split
  · rename_i tail htail
    rw [htail] at h
    exact absurd rfl h
  · rfl

/-- A text without braces and the closing brace after it, taken apart. -/
theorem span_close {body : List Char} (h : ∀ c ∈ body, isBrace c = false) (tail : List Char) :
    (body ++ '\x7d' :: tail).takeWhile (!isBrace ·) = body ∧
      (body ++ '\x7d' :: tail).dropWhile (!isBrace ·) = '\x7d' :: tail := by
  have hbody : ∀ c ∈ body, (!isBrace c) = true := by
    intro c hc
    rw [h c hc]
    rfl
  constructor
  · rw [List.takeWhile_append_of_pos hbody, List.takeWhile_cons_of_neg (by decide), List.append_nil]
  · rw [List.dropWhile_append_of_pos hbody, List.dropWhile_cons_of_neg (by decide)]

theorem findGroup?_group {body : List Char} (h : ∀ c ∈ body, isBrace c = false) (tail : List Char) :
    findGroup? ('\x7b' :: (body ++ '\x7d' :: tail)) = some ([], body, tail) := by
  obtain ⟨htake, hdrop⟩ := span_close h tail
  simp only [findGroup?, beq_self_eq_true, if_true, hdrop, htake]

/-- Where nothing closes a group, the first brace is no closing one. -/
theorem head?_dropWhile_ne {cs : List Char} (h : '\x7d' ∉ cs) :
    (cs.dropWhile (!isBrace ·)).head? ≠ some '\x7d' := by
  intro hhead
  exact h ((List.dropWhile_sublist _).subset (List.mem_of_head? hhead))

theorem head?_dropWhile_append_ne {head : List Char} (h : '\x7d' ∉ head) (tail : List Char) :
    ((head ++ '\x7b' :: tail).dropWhile (!isBrace ·)).head? ≠ some '\x7d' := by
  induction head with
  | nil =>
    rw [List.nil_append, List.dropWhile_cons_of_neg (by decide)]
    exact fun heq => absurd (Option.some.inj heq) (by decide)
  | cons c head ih =>
    rw [List.mem_cons, not_or] at h
    rw [List.cons_append, List.dropWhile_cons]
    split
    · exact ih h.2
    · exact fun heq => h.1 (Option.some.inj heq).symm

/-- **The first group that is closed is found**, behind any text that closes none. -/
theorem findGroup?_append {head body : List Char} (hhead : '\x7d' ∉ head)
    (hbody : ∀ c ∈ body, isBrace c = false) (tail : List Char) :
    findGroup? (head ++ '\x7b' :: (body ++ '\x7d' :: tail)) = some (head, body, tail) := by
  induction head with
  | nil => exact findGroup?_group hbody tail
  | cons c head ih =>
    rw [List.mem_cons, not_or] at hhead
    rw [List.cons_append]
    by_cases hc : c = '\x7b'
    · subst hc
      rw [findGroup?_cons_of_open (head?_dropWhile_append_ne hhead.2 _), ih hhead.2]
      rfl
    · rw [findGroup?_cons_of_ne hc, ih hhead.2]
      rfl

theorem findGroup?_eq_none_of_notMem {cs : List Char} (h : '\x7d' ∉ cs) : findGroup? cs = none := by
  induction cs with
  | nil => rfl
  | cons c cs ih =>
    rw [List.mem_cons, not_or] at h
    by_cases hc : c = '\x7b'
    · subst hc
      rw [findGroup?_cons_of_open (head?_dropWhile_ne h.2), ih h.2]
      rfl
    · rw [findGroup?_cons_of_ne hc, ih h.2]
      rfl

/-- A group is found in every text that holds one. -/
theorem not_hasGroup_of_findGroup? {cs : List Char} (h : findGroup? cs = none) : ¬ HasGroup cs := by
  rintro ⟨head, body, tail, rfl, hbody⟩
  induction head with
  | nil =>
    rw [List.nil_append, findGroup?_group hbody] at h
    cases h
  | cons c head ih =>
    apply ih
    rw [List.cons_append] at h
    by_cases hc : c = '\x7b'
    · subst hc
      by_cases hnext : ((head ++ '\x7b' :: (body ++ '\x7d' :: tail)).dropWhile (!isBrace ·)).head?
          = some '\x7d'
      -- the brace in front would make a group of its own
      · obtain ⟨after, hafter⟩ := List.head?_eq_some_iff.1 hnext
        simp only [findGroup?, beq_self_eq_true, if_true, hafter] at h
        cases h
      · rw [findGroup?_cons_of_open hnext] at h
        exact Option.map_eq_none_iff.1 h
    · rw [findGroup?_cons_of_ne hc] at h
      exact Option.map_eq_none_iff.1 h

/-! ## 2. Steps of the expansion -/

/-- **One step**: the leftmost group without a group inside gives way to one of its alternatives. -/
def ResolvesTo (p q : List Char) : Prop :=
  ∃ head body tail, findGroup? p = some (head, body, tail) ∧
    ∃ option ∈ splitAt ',' body, q = head ++ option ++ tail

/-- **The steps come to an end**: each takes an opening brace away. -/
theorem wellFounded_resolvesTo : WellFounded fun q p => ResolvesTo p q := by
  refine Subrelation.wf ?_ (measure openings).wf
  rintro q p ⟨head, body, tail, hfound, option, hoption, rfl⟩
  exact openings_lt_of_mem_splitAt hfound hoption

theorem expandChars_of_none {cs : List Char} (h : findGroup? cs = none) : expandChars cs = [cs] := by
  rw [expandChars]
  split
  · rfl
  · rename_i hsome
    cases h.symm.trans hsome

theorem expandChars_of_some {cs head body tail : List Char}
    (h : findGroup? cs = some (head, body, tail)) :
    expandChars cs = (splitAt ',' body).flatMap fun option => expandChars (head ++ option ++ tail) := by
  rw [expandChars]
  split
  · rename_i hnone
    cases hnone.symm.trans h
  · rename_i head' body' tail' hsome
    cases h.symm.trans hsome
    rw [List.flatMap_subtype (g := fun option => expandChars (head ++ option ++ tail))
      (fun _ _ => rfl), List.unattach_attach]

/-- **Something is left of every text.** -/
theorem expandChars_ne_nil (cs : List Char) : expandChars cs ≠ [] := by
  induction cs using wellFounded_resolvesTo.induction with
  | _ cs ih =>
    cases hfound : findGroup? cs with
    | none =>
      rw [expandChars_of_none hfound]
      exact List.cons_ne_nil _ _
    | some found =>
      obtain ⟨head, body, tail⟩ := found
      obtain ⟨first, others, hsplit⟩ :=
        List.exists_cons_of_ne_nil (splitWhere_ne_nil (· == ',') body)
      have hfirst : first ∈ splitAt ',' body := by
        rw [splitAt, hsplit]
        exact List.mem_cons_self
      rw [expandChars_of_some hfound, Ne, List.flatMap_eq_nil_iff]
      intro hnone
      exact ih (head ++ first ++ tail) ⟨head, body, tail, hfound, first, hfirst, rfl⟩
        (hnone first hfirst)

/-- **No group is left.** -/
theorem not_hasGroup_of_mem_expandChars {cs s : List Char} (h : s ∈ expandChars cs) :
    ¬ HasGroup s := by
  induction cs using wellFounded_resolvesTo.induction with
  | _ cs ih =>
    cases hfound : findGroup? cs with
    | none =>
      rw [expandChars_of_none hfound, List.mem_singleton] at h
      subst h
      exact not_hasGroup_of_findGroup? hfound
    | some found =>
      obtain ⟨head, body, tail⟩ := found
      rw [expandChars_of_some hfound, List.mem_flatMap] at h
      obtain ⟨option, hoption, hs⟩ := h
      exact ih _ ⟨head, body, tail, hfound, option, hoption, rfl⟩ hs

/-! ## 3. Patterns -/

/-- A character that stands for itself: no brace, and in an alternative no comma either. -/
def isPlain (inGroup : Bool) (c : Char) : Bool :=
  !isBrace c && !(inGroup && c == ',')

mutual

/-- **A pattern with groups**, by itself or as an alternative in a group. -/
inductive Braced : Bool → Type where
  | nil {inGroup : Bool} : Braced inGroup
  | literal {inGroup : Bool} (text : List Char) (plain : ∀ c ∈ text, isPlain inGroup c = true)
      (rest : Braced inGroup) : Braced inGroup
  | group {inGroup : Bool} (options : Options) (rest : Braced inGroup) : Braced inGroup

/-- The alternatives of a group, one or more. -/
inductive Options : Type where
  | last (option : Braced true)
  | cons (option : Braced true) (others : Options)

end

mutual

/-- The text of a pattern. -/
def Braced.render {inGroup : Bool} : Braced inGroup → List Char
  | .nil => []
  | .literal text _ rest => text ++ rest.render
  | .group options rest => '\x7b' :: (options.render ++ '\x7d' :: rest.render)

/-- The text between the braces of a group. -/
def Options.render : Options → List Char
  | .last option => option.render
  | .cons option others => option.render ++ ',' :: others.render

end

mutual

/-- **A text is in the language of a pattern**: choosing one alternative for every group can give
it. -/
def Braced.Means {inGroup : Bool} : Braced inGroup → List Char → Prop
  | .nil, s => s = []
  | .literal text _ rest, s => ∃ t, rest.Means t ∧ s = text ++ t
  | .group options rest, s => ∃ chosen t, options.Offer chosen ∧ rest.Means t ∧ s = chosen ++ t

/-- A text is in the language of one of the alternatives. -/
def Options.Offer : Options → List Char → Prop
  | .last option, s => option.Means s
  | .cons option others, s => option.Means s ∨ others.Offer s

end

/-! ## 4. The expansion of a pattern -/

mutual

/-- **The texts that a pattern is expanded to**, in their order. A group is chosen from once all of
its alternatives have been expanded, so each of these counts with all expansions of the others. -/
def Braced.expansions {inGroup : Bool} : Braced inGroup → List (List Char)
  | .nil => [[]]
  | .literal text _ rest => rest.expansions.map (text ++ ·)
  | .group options rest =>
    options.rows.flatMap fun row => row.flatMap fun chosen => rest.expansions.map (chosen ++ ·)

/-- The expansions of all alternatives of a group, one for each in a row. -/
def Options.rows : Options → List (List (List Char))
  | .last option => option.expansions.map fun s => [s]
  | .cons option others => option.expansions.flatMap fun s => others.rows.map (s :: ·)

end

theorem isBrace_of_isPlain {inGroup : Bool} {c : Char} (h : isPlain inGroup c = true) :
    isBrace c = false := by
  rw [isPlain, Bool.and_eq_true, Bool.not_eq_true'] at h
  exact h.1

mutual

/-- What a pattern is expanded to consists of plain characters. -/
theorem Braced.isPlain_of_mem_expansions {inGroup : Bool} :
    ∀ {p : Braced inGroup} {s : List Char}, s ∈ p.expansions → ∀ c ∈ s, isPlain inGroup c = true
  | .nil, s, h => by
    rw [Braced.expansions, List.mem_singleton] at h
    subst h
    exact fun c hc => absurd hc List.not_mem_nil
  | .literal text plain rest, s, h => by
    rw [Braced.expansions, List.mem_map] at h
    obtain ⟨t, ht, rfl⟩ := h
    intro c hc
    rcases List.mem_append.1 hc with hc | hc
    · exact plain c hc
    · exact Braced.isPlain_of_mem_expansions ht c hc
  | .group options rest, s, h => by
    rw [Braced.expansions, List.mem_flatMap] at h
    obtain ⟨row, hrow, h⟩ := h
    obtain ⟨chosen, hchosen, h⟩ := List.mem_flatMap.1 h
    obtain ⟨t, ht, rfl⟩ := List.mem_map.1 h
    intro c hc
    rcases List.mem_append.1 hc with hc | hc
    -- what is plain in an alternative is plain outside of groups
    · have hplain := Options.isPlain_of_mem_rows hrow chosen hchosen c hc
      rw [isPlain, Bool.and_eq_true, Bool.true_and] at hplain
      rw [isPlain, hplain.1, Bool.true_and]
      cases inGroup with
      | true => exact hplain.2
      | false => rfl
    · exact Braced.isPlain_of_mem_expansions ht c hc

theorem Options.isPlain_of_mem_rows :
    ∀ {options : Options} {row : List (List Char)}, row ∈ options.rows →
      ∀ s ∈ row, ∀ c ∈ s, isPlain true c = true
  | .last option, row, h, s, hs => by
    rw [Options.rows, List.mem_map] at h
    obtain ⟨t, ht, rfl⟩ := h
    rw [List.mem_singleton] at hs
    subst hs
    exact Braced.isPlain_of_mem_expansions ht
  | .cons option others, row, h, s, hs => by
    rw [Options.rows, List.mem_flatMap] at h
    obtain ⟨t, ht, h⟩ := h
    obtain ⟨rest, hrest, rfl⟩ := List.mem_map.1 h
    rcases List.mem_cons.1 hs with rfl | hs
    · exact Braced.isPlain_of_mem_expansions ht
    · exact Options.isPlain_of_mem_rows hrest s hs

end

theorem Options.ne_nil_of_mem_rows {options : Options} {row : List (List Char)}
    (h : row ∈ options.rows) : row ≠ [] := by
  cases options with
  | last option =>
    obtain ⟨s, -, rfl⟩ := List.mem_map.1 h
    exact List.cons_ne_nil _ _
  | cons option others =>
    obtain ⟨s, -, h⟩ := List.mem_flatMap.1 h
    obtain ⟨rest, -, rfl⟩ := List.mem_map.1 h
    exact List.cons_ne_nil _ _

/-- A row of expanded alternatives is what splitting its text at the commas gives. -/
theorem Options.splitAt_row {options : Options} {row : List (List Char)} (h : row ∈ options.rows) :
    splitAt ',' (joinWith [','] row) = row := by
  refine splitAt_joinWith (ne_nil_of_mem_rows h) ?_
  intro s hs hcomma
  exact absurd (isPlain_of_mem_rows h s hs ',' hcomma) (by decide)

theorem Options.isBrace_of_mem_row {options : Options} {row : List (List Char)}
    (h : row ∈ options.rows) : ∀ c ∈ joinWith [','] row, isBrace c = false := by
  intro c hc
  rcases mem_joinWith hc with rfl | ⟨s, hs, hc⟩
  · rfl
  · exact isBrace_of_isPlain (isPlain_of_mem_rows h s hs c hc)

/-- No plain text closes a group. -/
theorem notMem_append_of_isPlain {inGroup : Bool} {head text : List Char} (hhead : '\x7d' ∉ head)
    (htext : ∀ c ∈ text, isPlain inGroup c = true) : '\x7d' ∉ head ++ text := by
  rw [List.mem_append, not_or]
  refine ⟨hhead, fun hmem => ?_⟩
  have hbrace := isBrace_of_isPlain (htext _ hmem)
  exact absurd hbrace (by decide)

mutual

/-- **A pattern can be expanded in any context** in which nothing before it closes a group: first its
own groups give way, and then what is left of the context is expanded. -/
theorem Braced.expandChars_append {inGroup : Bool} :
    ∀ (p : Braced inGroup) {head : List Char} (tail : List Char), '\x7d' ∉ head →
      expandChars (head ++ (p.render ++ tail))
        = p.expansions.flatMap fun s => expandChars (head ++ (s ++ tail))
  | .nil, head, tail, _ => by
    rw [Braced.render, Braced.expansions, List.flatMap_singleton]
  | .literal text plain rest, head, tail, hhead => by
    have hrest := Braced.expandChars_append rest tail (notMem_append_of_isPlain hhead plain)
    rw [Braced.render, Braced.expansions, List.flatMap_map]
    simp only [List.append_assoc] at hrest ⊢
    exact hrest
  | .group options rest, head, tail, hhead => by
    have hopen : '\x7d' ∉ head ++ ['\x7b'] := by
      rw [List.mem_append, not_or]
      exact ⟨hhead, by decide⟩
    have hoptions := Options.expandChars_append options ('\x7d' :: (rest.render ++ tail)) hopen
    -- once the alternatives are expanded, the group is the first that is closed
    have hrow : ∀ row ∈ options.rows,
        expandChars (head ++ ['\x7b'] ++ (joinWith [','] row ++ '\x7d' :: (rest.render ++ tail)))
          = row.flatMap fun chosen =>
              rest.expansions.flatMap fun s => expandChars (head ++ (chosen ++ s ++ tail)) := by
      intro row hmem
      have hfound := findGroup?_append hhead (Options.isBrace_of_mem_row hmem) (rest.render ++ tail)
      rw [List.append_assoc, List.singleton_append, expandChars_of_some hfound,
        Options.splitAt_row hmem]
      refine List.flatMap_congr fun chosen hchosen => ?_
      have hplain := Options.isPlain_of_mem_rows hmem chosen hchosen
      have hrest := Braced.expandChars_append rest tail (notMem_append_of_isPlain hhead hplain)
      simp only [List.append_assoc] at hrest ⊢
      exact hrest
    rw [Braced.render, Braced.expansions, List.flatMap_assoc]
    simp only [List.append_assoc, List.cons_append, List.nil_append] at hoptions ⊢
    rw [hoptions]
    refine List.flatMap_congr fun row hmem => ?_
    have hthis := hrow row hmem
    simp only [List.append_assoc, List.cons_append, List.nil_append] at hthis
    rw [hthis, List.flatMap_assoc]
    refine List.flatMap_congr fun chosen _ => ?_
    rw [List.flatMap_map]
    simp only [List.append_assoc]

/-- So can the alternatives of a group, from the first on. -/
theorem Options.expandChars_append :
    ∀ (options : Options) {head : List Char} (tail : List Char), '\x7d' ∉ head →
      expandChars (head ++ (options.render ++ tail))
        = options.rows.flatMap fun row => expandChars (head ++ (joinWith [','] row ++ tail))
  | .last option, head, tail, hhead => by
    have hoption := Braced.expandChars_append option tail hhead
    rw [Options.render, Options.rows, List.flatMap_map, hoption]
    refine List.flatMap_congr fun s _ => ?_
    rw [joinWith_singleton]
  | .cons option others, head, tail, hhead => by
    have hoption := Braced.expandChars_append option (',' :: (others.render ++ tail)) hhead
    rw [Options.render, Options.rows, List.flatMap_assoc]
    simp only [List.append_assoc, List.cons_append] at hoption ⊢
    rw [hoption]
    refine List.flatMap_congr fun s hs => ?_
    have hcomma : '\x7d' ∉ head ++ s ++ [','] := by
      rw [List.mem_append, not_or]
      exact ⟨notMem_append_of_isPlain hhead (Braced.isPlain_of_mem_expansions hs), by decide⟩
    have hothers := Options.expandChars_append others tail hcomma
    simp only [List.append_assoc, List.cons_append, List.nil_append] at hothers
    rw [hothers, List.flatMap_map]
    refine List.flatMap_congr fun row hrow => ?_
    obtain ⟨first, row', rfl⟩ := List.exists_cons_of_ne_nil (Options.ne_nil_of_mem_rows hrow)
    rw [joinWith_cons_cons, List.append_assoc, List.cons_append]

end

/-- **A pattern is expanded to its expansions.** -/
theorem Braced.expandChars_render {inGroup : Bool} (p : Braced inGroup) :
    expandChars p.render = p.expansions := by
  have hcontext := @Braced.expandChars_append inGroup p [] [] List.not_mem_nil
  simp only [List.nil_append, List.append_nil] at hcontext
  rw [hcontext]
  -- nothing is left to expand in them
  have hdone : ∀ s ∈ p.expansions, expandChars s = [s] := by
    intro s hs
    refine expandChars_of_none (findGroup?_eq_none_of_notMem ?_)
    exact @notMem_append_of_isPlain inGroup [] s List.not_mem_nil (isPlain_of_mem_expansions hs)
  rw [List.flatMap_congr hdone, List.flatMap_singleton']

/-! ## 5. The language of a pattern -/

theorem Braced.expansions_ne_nil {inGroup : Bool} (p : Braced inGroup) : p.expansions ≠ [] := by
  rw [← expandChars_render]
  exact expandChars_ne_nil _

theorem Options.rows_ne_nil (options : Options) : options.rows ≠ [] := by
  intro hnone
  have hcontext := @Options.expandChars_append options [] [] List.not_mem_nil
  rw [hnone, List.flatMap_nil] at hcontext
  exact expandChars_ne_nil _ hcontext

mutual

/-- **The expansions of a pattern are its language.** -/
theorem Braced.mem_expansions {inGroup : Bool} :
    ∀ (p : Braced inGroup) {s : List Char}, s ∈ p.expansions ↔ p.Means s
  | .nil, s => by rw [Braced.expansions, Braced.Means, List.mem_singleton]
  | .literal text plain rest, s => by
    rw [Braced.expansions, Braced.Means, List.mem_map]
    simp only [Braced.mem_expansions rest, eq_comm]
  | .group options rest, s => by
    rw [Braced.expansions, Braced.Means, List.mem_flatMap]
    constructor
    · rintro ⟨row, hrow, h⟩
      obtain ⟨chosen, hchosen, h⟩ := List.mem_flatMap.1 h
      obtain ⟨t, ht, rfl⟩ := List.mem_map.1 h
      exact ⟨chosen, t, (Options.exists_mem_rows options).1 ⟨row, hrow, hchosen⟩,
        (Braced.mem_expansions rest).1 ht, rfl⟩
    · rintro ⟨chosen, t, hoffer, ht, rfl⟩
      obtain ⟨row, hrow, hchosen⟩ := (Options.exists_mem_rows options).2 hoffer
      exact ⟨row, hrow, List.mem_flatMap.2 ⟨chosen, hchosen,
        List.mem_map.2 ⟨t, (Braced.mem_expansions rest).2 ht, rfl⟩⟩⟩

/-- The texts in the rows of a group are the languages of its alternatives together. -/
theorem Options.exists_mem_rows :
    ∀ (options : Options) {s : List Char}, (∃ row ∈ options.rows, s ∈ row) ↔ options.Offer s
  | .last option, s => by
    rw [Options.rows, Options.Offer, ← Braced.mem_expansions option]
    simp only [List.mem_map, exists_exists_and_eq_and, List.mem_singleton, exists_eq_right']
  | .cons option others, s => by
    rw [Options.rows, Options.Offer, ← Braced.mem_expansions option,
      ← Options.exists_mem_rows others]
    simp only [List.mem_flatMap, List.mem_map]
    constructor
    · rintro ⟨_, ⟨t, ht, row, hrow, rfl⟩, hs⟩
      rcases List.mem_cons.1 hs with rfl | hs
      · exact Or.inl ht
      · exact Or.inr ⟨row, hrow, hs⟩
    -- a row can be completed from either side, as neither has nothing to offer
    · rintro (hs | ⟨row, hrow, hs⟩)
      · obtain ⟨row, hrow⟩ := List.exists_mem_of_ne_nil _ (Options.rows_ne_nil others)
        exact ⟨s :: row, ⟨s, hs, row, hrow, rfl⟩, List.mem_cons_self⟩
      · obtain ⟨t, ht⟩ := List.exists_mem_of_ne_nil _ (Braced.expansions_ne_nil option)
        exact ⟨t :: row, ⟨t, ht, row, hrow, rfl⟩, List.mem_cons_of_mem t hs⟩

end

/-! ## 6. Flat patterns -/

/-- There is no group in a pattern. -/
def Braced.isLiteral {inGroup : Bool} : Braced inGroup → Bool
  | .nil => true
  | .literal _ _ rest => rest.isLiteral
  | .group _ _ => false

/-- There is no group in the alternatives of a group. -/
def Options.areLiteral : Options → Bool
  | .last option => option.isLiteral
  | .cons option others => option.isLiteral && others.areLiteral

/-- **No group of a pattern holds another.** -/
def Braced.isFlat {inGroup : Bool} : Braced inGroup → Bool
  | .nil => true
  | .literal _ _ rest => rest.isFlat
  | .group options rest => options.areLiteral && rest.isFlat

/-- The texts of the alternatives of a group. -/
def Options.texts : Options → List (List Char)
  | .last option => [option.render]
  | .cons option others => option.render :: others.texts

/-- What can stand at each place of a flat pattern: a literal, or the alternatives of a group. -/
def Braced.slots {inGroup : Bool} : Braced inGroup → List (List (List Char))
  | .nil => []
  | .literal text _ rest => [text] :: rest.slots
  | .group options rest => options.texts :: rest.slots

/-- **The product of some lists**: the ways to take one item of each, in lexicographic order. The
item of the first list changes last. -/
def selections {α : Type} : List (List α) → List (List α)
  | [] => [[]]
  | items :: others => items.flatMap fun item => (selections others).map (item :: ·)

theorem Braced.expansions_of_isLiteral {inGroup : Bool} :
    ∀ {p : Braced inGroup}, p.isLiteral = true → p.expansions = [p.render]
  | .nil, _ => rfl
  | .literal text plain rest, h => by
    rw [Braced.expansions, expansions_of_isLiteral (p := rest) h, Braced.render]
    rfl

theorem Options.rows_of_areLiteral :
    ∀ {options : Options}, options.areLiteral = true → options.rows = [options.texts]
  | .last option, h => by
    rw [Options.rows, Braced.expansions_of_isLiteral h]
    rfl
  | .cons option others, h => by
    rw [areLiteral, Bool.and_eq_true] at h
    rw [Options.rows, Braced.expansions_of_isLiteral h.1, rows_of_areLiteral h.2]
    rfl

/-- **A flat pattern is expanded to the product of its groups.** -/
theorem Braced.expansions_of_isFlat {inGroup : Bool} :
    ∀ {p : Braced inGroup}, p.isFlat = true →
      p.expansions = (selections p.slots).map List.flatten
  | .nil, _ => rfl
  | .literal text plain rest, h => by
    rw [Braced.expansions, expansions_of_isFlat (p := rest) h, Braced.slots, selections,
      List.flatMap_singleton, List.map_map, List.map_map]
    rfl
  | .group options rest, h => by
    rw [isFlat, Bool.and_eq_true] at h
    rw [Braced.expansions, Options.rows_of_areLiteral h.1, expansions_of_isFlat h.2, Braced.slots,
      selections, List.flatMap_singleton, List.map_flatMap]
    refine List.flatMap_congr fun chosen _ => ?_
    rw [List.map_map, List.map_map]
    rfl

/-! ## 7. The expansion of texts -/

theorem mem_expandBraces {pattern s : String} :
    s ∈ expandBraces pattern ↔ s.toList ∈ expandChars pattern.toList := by
  rw [expandBraces, List.mem_map]
  constructor
  · rintro ⟨cs, hcs, rfl⟩
    rw [String.toList_ofList]
    exact hcs
  · intro h
    exact ⟨s.toList, h, String.ofList_toList⟩

/-- **Brace expansion has the meaning of braces.** The steps that resolve groups come to an end on
every text; something is left, and no group is left in it. The texts that a pattern of literals and
groups is expanded to are those that choosing an alternative for every group gives, however deep the
groups stand in each other. Where no group holds another, they come as the product of the groups in
lexicographic order, and the leftmost group changes last. -/
theorem expandBraces_meaning :
    WellFounded (fun q p => ResolvesTo p q) ∧
    (∀ pattern, expandBraces pattern ≠ [] ∧ ∀ s ∈ expandBraces pattern, ¬ HasGroup s.toList) ∧
    (∀ (p : Braced false) (s : String),
      s ∈ expandBraces (String.ofList p.render) ↔ p.Means s.toList) ∧
    (∀ p : Braced false, p.isFlat = true →
      expandBraces (String.ofList p.render)
        = (selections p.slots).map fun parts => String.ofList parts.flatten) := by
  refine ⟨wellFounded_resolvesTo, fun pattern => ⟨?_, ?_⟩, fun p s => ?_, fun p hflat => ?_⟩
  · rw [expandBraces, Ne, List.map_eq_nil_iff]
    exact expandChars_ne_nil _
  · intro s hs
    exact not_hasGroup_of_mem_expandChars (mem_expandBraces.1 hs)
  · rw [mem_expandBraces, String.toList_ofList, Braced.expandChars_render]
    exact Braced.mem_expansions p
  · rw [expandBraces, String.toList_ofList, Braced.expandChars_render,
      Braced.expansions_of_isFlat hflat, List.map_map]
    rfl

/-- A literal in a pattern, or in an alternative where it has no comma. -/
def Braced.text {inGroup : Bool} (s : String) (rest : Braced inGroup)
    (plain : s.toList.all (isPlain inGroup) = true := by decide) : Braced inGroup :=
  .literal s.toList (List.all_eq_true.1 plain) rest

/-- The pattern `{src,lib}/*.{ts,js}`. -/
def scriptPattern : Braced false :=
  .group (.cons (.text "src" .nil) (.last (.text "lib" .nil)))
    (.text "/*." (.group (.cons (.text "ts" .nil) (.last (.text "js" .nil))) .nil))

/-- The pattern `{a,b{c,d}}`, with a group in an alternative. -/
def nestedPattern : Braced false :=
  .group
    (.cons (.text "a" .nil)
      (.last (.text "b" (.group (.cons (.text "c" .nil) (.last (.text "d" .nil))) .nil))))
    .nil

/-- Two groups give their product, and in a group within a group one of the alternatives is chosen
where the other one was chosen before. -/
theorem expandBraces_scriptPattern :
    expandBraces "\x7bsrc,lib\x7d/*.\x7bts,js\x7d" = ["src/*.ts", "src/*.js", "lib/*.ts", "lib/*.js"] ∧
    "bd" ∈ expandBraces "\x7ba,b\x7bc,d\x7d\x7d" := by
  obtain ⟨-, -, hmeans, hflat⟩ := expandBraces_meaning
  constructor
  · have hrender : String.ofList scriptPattern.render = "\x7bsrc,lib\x7d/*.\x7bts,js\x7d" := by
      decide +kernel
    rw [← hrender, hflat scriptPattern (by decide)]
    decide +kernel
  · have hrender : String.ofList nestedPattern.render = "\x7ba,b\x7bc,d\x7d\x7d" := by
      decide +kernel
    rw [← hrender, hmeans]
    refine ⟨"bd".toList, [], ?_, rfl, rfl⟩
    exact Or.inr ⟨"d".toList, ⟨"d".toList, [], Or.inr ⟨[], rfl, rfl⟩, rfl, rfl⟩, rfl⟩

end CodeAtlas.Glob
