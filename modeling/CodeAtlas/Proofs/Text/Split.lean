import CodeAtlas.Text.Slice
import Mathlib.Data.List.Basic
import Mathlib.Data.List.TakeWhile

/-!
# Splitting and joining

Splitting a text at a character undoes joining pieces that do not hold it
(`splitAt_joinWith`). The pieces of a split are free of the character, and made of characters of
the text.
-/

namespace CodeAtlas.Text

variable {p : Char → Bool} {sep : Char}

/-! ## 1. Pieces of a split -/

theorem splitWhere_cons_of_sep {c : Char} (h : p c = true) (cs : List Char) :
    splitWhere p (c :: cs) = [] :: splitWhere p cs := by
  rw [splitWhere, if_pos h]

theorem splitWhere_ne_nil (p : Char → Bool) (cs : List Char) : splitWhere p cs ≠ [] := by
  cases cs with
  | nil => exact List.cons_ne_nil _ _
  | cons c cs =>
    rw [splitWhere]
    split
    · exact List.cons_ne_nil _ _
    · split <;> exact List.cons_ne_nil _ _

/-- A character that does not separate goes to the first piece. -/
theorem splitWhere_cons_of_not {c : Char} (h : ¬ p c = true) (cs : List Char) :
    ∃ piece pieces, splitWhere p cs = piece :: pieces ∧
      splitWhere p (c :: cs) = (c :: piece) :: pieces := by
  obtain ⟨piece, pieces, hcs⟩ := List.exists_cons_of_ne_nil (splitWhere_ne_nil p cs)
  refine ⟨piece, pieces, hcs, ?_⟩
  rw [splitWhere, if_neg h, hcs]

/-- A piece holds characters of the text, and none that separates. -/
theorem of_mem_splitWhere {cs piece : List Char} {c : Char} (h : piece ∈ splitWhere p cs)
    (hc : c ∈ piece) : c ∈ cs ∧ ¬ p c = true := by
  induction cs generalizing piece with
  | nil =>
    rw [splitWhere, List.mem_singleton] at h
    rw [h] at hc
    exact absurd hc List.not_mem_nil
  | cons d cs ih =>
    by_cases hd : p d = true
    · rw [splitWhere_cons_of_sep hd, List.mem_cons] at h
      rcases h with rfl | h
      · exact absurd hc List.not_mem_nil
      · exact ⟨List.mem_cons_of_mem d (ih h hc).1, (ih h hc).2⟩
    · obtain ⟨first, pieces, hcs, hsplit⟩ := splitWhere_cons_of_not hd cs
      rw [hcs] at ih
      rw [hsplit, List.mem_cons] at h
      rcases h with rfl | h
      · rcases List.mem_cons.1 hc with rfl | hc
        · exact ⟨List.mem_cons_self, hd⟩
        · have := ih List.mem_cons_self hc
          exact ⟨List.mem_cons_of_mem d this.1, this.2⟩
      · have := ih (List.mem_cons_of_mem first h) hc
        exact ⟨List.mem_cons_of_mem d this.1, this.2⟩

/-- A text before a separator is split on its own. -/
theorem splitWhere_append_sep {a : List Char} {c : Char} (ha : ∀ d ∈ a, ¬ p d = true)
    (hc : p c = true) (b : List Char) : splitWhere p (a ++ c :: b) = a :: splitWhere p b := by
  induction a with
  | nil => exact splitWhere_cons_of_sep hc b
  | cons d a ih =>
    have hrest := ih fun e he => ha e (List.mem_cons_of_mem d he)
    obtain ⟨piece, pieces, hsplit, hcons⟩ :=
      splitWhere_cons_of_not (ha d List.mem_cons_self) (a ++ c :: b)
    rw [List.cons_append, hcons]
    rw [hrest] at hsplit
    cases hsplit
    rfl

/-- A text without separators is one piece. -/
theorem splitWhere_of_forall_not {a : List Char} (ha : ∀ d ∈ a, ¬ p d = true) :
    splitWhere p a = [a] := by
  induction a with
  | nil => rfl
  | cons d a ih =>
    obtain ⟨piece, pieces, hsplit, hcons⟩ := splitWhere_cons_of_not (ha d List.mem_cons_self) a
    rw [ih fun e he => ha e (List.mem_cons_of_mem d he)] at hsplit
    cases hsplit
    exact hcons

/-- A text is split at each of its separators alike. -/
theorem splitWhere_append {c : Char} (hc : p c = true) (a b : List Char) :
    splitWhere p (a ++ c :: b) = splitWhere p a ++ splitWhere p b := by
  induction a with
  | nil => exact splitWhere_cons_of_sep hc b
  | cons d a ih =>
    by_cases hd : p d = true
    · rw [List.cons_append, splitWhere_cons_of_sep hd, splitWhere_cons_of_sep hd, ih,
        List.cons_append]
    · obtain ⟨piece, pieces, hsplit, hcons⟩ := splitWhere_cons_of_not hd a
      obtain ⟨piece', pieces', hsplit', hcons'⟩ := splitWhere_cons_of_not hd (a ++ c :: b)
      rw [ih, hsplit, List.cons_append] at hsplit'
      cases hsplit'
      rw [List.cons_append, hcons', hcons, List.cons_append]

/-! ## 2. One separating character -/

theorem mem_of_mem_splitAt {cs piece : List Char} {c : Char} (h : piece ∈ splitAt sep cs)
    (hc : c ∈ piece) : c ∈ cs :=
  (of_mem_splitWhere h hc).1

theorem notMem_of_mem_splitAt {cs piece : List Char} (h : piece ∈ splitAt sep cs) :
    sep ∉ piece := fun hc => (of_mem_splitWhere h hc).2 (beq_self_eq_true sep)

theorem splitAt_append_sep {a : List Char} (ha : sep ∉ a) (b : List Char) :
    splitAt sep (a ++ sep :: b) = a :: splitAt sep b := by
  refine splitWhere_append_sep (p := (· == sep)) (fun d hd hsep => ha ?_) (beq_self_eq_true sep) b
  rwa [← eq_of_beq hsep]

theorem splitAt_of_notMem {a : List Char} (ha : sep ∉ a) : splitAt sep a = [a] := by
  refine splitWhere_of_forall_not fun d hd hsep => ha ?_
  rwa [← eq_of_beq hsep]

/-! ## 3. Joining -/

@[simp] theorem joinWith_nil (s : List Char) : joinWith s [] = [] := rfl

@[simp] theorem joinWith_singleton (s piece : List Char) : joinWith s [piece] = piece := by
  simp [joinWith]

theorem joinWith_glue_cons_cons (glue a b : List Char) (pieces : List (List Char)) :
    joinWith glue (a :: b :: pieces) = a ++ (glue ++ joinWith glue (b :: pieces)) := by
  simp [joinWith]

theorem joinWith_cons_cons (sep : Char) (a b : List Char) (pieces : List (List Char)) :
    joinWith [sep] (a :: b :: pieces) = a ++ sep :: joinWith [sep] (b :: pieces) :=
  joinWith_glue_cons_cons [sep] a b pieces

/-- A joined text holds the characters of its pieces, and the separator. -/
theorem mem_joinWith {pieces : List (List Char)} {c : Char} (h : c ∈ joinWith [sep] pieces) :
    c = sep ∨ ∃ piece ∈ pieces, c ∈ piece := by
  induction pieces with
  | nil => exact absurd h List.not_mem_nil
  | cons a pieces ih =>
    cases pieces with
    | nil =>
      rw [joinWith_singleton] at h
      exact Or.inr ⟨a, List.mem_cons_self, h⟩
    | cons b pieces =>
      rw [joinWith_cons_cons, List.mem_append, List.mem_cons] at h
      rcases h with h | rfl | h
      · exact Or.inr ⟨a, List.mem_cons_self, h⟩
      · exact Or.inl rfl
      · rcases ih h with rfl | ⟨piece, hpiece, hc⟩
        · exact Or.inl rfl
        · exact Or.inr ⟨piece, List.mem_cons_of_mem a hpiece, hc⟩

/-- **Splitting undoes joining**, if the pieces do not hold the separator. -/
theorem splitAt_joinWith {pieces : List (List Char)} (hne : pieces ≠ [])
    (h : ∀ piece ∈ pieces, sep ∉ piece) : splitAt sep (joinWith [sep] pieces) = pieces := by
  induction pieces with
  | nil => exact absurd rfl hne
  | cons a pieces ih =>
    have ha : sep ∉ a := h a List.mem_cons_self
    cases pieces with
    | nil => rw [joinWith_singleton, splitAt_of_notMem ha]
    | cons b pieces =>
      rw [joinWith_cons_cons, splitAt_append_sep ha, ih (List.cons_ne_nil b pieces)]
      exact fun piece hpiece => h piece (List.mem_cons_of_mem a hpiece)

/-- **Joining undoes splitting.** -/
theorem joinWith_splitAt (sep : Char) (cs : List Char) : joinWith [sep] (splitAt sep cs) = cs := by
  induction cs with
  | nil => rfl
  | cons c cs ih =>
    by_cases hc : (c == sep) = true
    · have hsplit : splitAt sep (c :: cs) = [] :: splitAt sep cs :=
        splitWhere_cons_of_sep (p := (· == sep)) hc cs
      obtain ⟨piece, pieces, hcs⟩ :=
        List.exists_cons_of_ne_nil (splitWhere_ne_nil (· == sep) cs)
      have hcs : splitAt sep cs = piece :: pieces := hcs
      rw [hcs] at ih
      rw [hsplit, hcs, joinWith_cons_cons, ih, eq_of_beq hc, List.nil_append]
    · obtain ⟨piece, pieces, hcs, hsplit⟩ := splitWhere_cons_of_not (p := (· == sep)) hc cs
      have hcs : splitAt sep cs = piece :: pieces := hcs
      have hsplit : splitAt sep (c :: cs) = (c :: piece) :: pieces := hsplit
      rw [hcs] at ih
      rw [hsplit]
      cases pieces with
      | nil => rw [joinWith_singleton] at ih ⊢; rw [ih]
      | cons next pieces =>
        rw [joinWith_cons_cons] at ih ⊢
        rw [List.cons_append, ih]

theorem splitAt_append (sep : Char) (a b : List Char) :
    splitAt sep (a ++ sep :: b) = splitAt sep a ++ splitAt sep b :=
  splitWhere_append (p := (· == sep)) (beq_self_eq_true sep) a b

theorem joinWith_append {a b : List (List Char)} (ha : a ≠ []) (hb : b ≠ []) :
    joinWith [sep] (a ++ b) = joinWith [sep] a ++ sep :: joinWith [sep] b := by
  induction a with
  | nil => exact absurd rfl ha
  | cons x a ih =>
    cases a with
    | nil =>
      obtain ⟨y, b, rfl⟩ := List.exists_cons_of_ne_nil hb
      rw [List.singleton_append, joinWith_cons_cons, joinWith_singleton]
    | cons y a =>
      rw [List.cons_append, List.cons_append, joinWith_cons_cons, ← List.cons_append,
        ih (List.cons_ne_nil y a), joinWith_cons_cons, List.append_assoc, List.cons_append]

/-! ## 4. What stands at the ends -/

/-- A list with one item more is cut at that item or before it. -/
theorem concat_eq_append_cons {α : Type*} {as before later : List α} {a c : α} :
    as ++ [c] = before ++ a :: later ↔
      (later = [] ∧ as = before ∧ c = a) ∨
        ∃ rest, later = rest ++ [c] ∧ as = before ++ a :: rest := by
  constructor
  · intro h
    rcases List.eq_nil_or_concat later with rfl | ⟨rest, b, rfl⟩
    · obtain ⟨has, hc⟩ := List.append_inj' h rfl
      exact Or.inl ⟨rfl, has, List.singleton_inj.1 hc⟩
    · rw [List.concat_eq_append, ← List.cons_append, ← List.append_assoc] at h
      obtain ⟨has, hc⟩ := List.append_inj' h rfl
      rw [List.singleton_inj.1 hc, List.concat_eq_append]
      exact Or.inr ⟨rest, rfl, has⟩
  · rintro (⟨rfl, rfl, rfl⟩ | ⟨rest, rfl, rfl⟩)
    · rfl
    · rw [List.append_assoc, List.cons_append]

theorem dropStart?_append (pre rest : List Char) : dropStart? pre (pre ++ rest) = some rest := by
  rw [dropStart?, if_pos (List.isPrefixOf_iff_prefix.2 (List.prefix_append pre rest)),
    List.drop_left]

theorem eq_append_of_dropStart? {pre cs rest : List Char} (h : dropStart? pre cs = some rest) :
    cs = pre ++ rest := by
  unfold dropStart? at h
  split at h
  · rename_i hprefix
    cases h
    obtain ⟨tail, rfl⟩ := List.isPrefixOf_iff_prefix.1 hprefix
    rw [List.drop_left]
  · cases h

theorem append_isPrefixOf (pre more cs : List Char) :
    (pre ++ more).isPrefixOf cs = (dropStart? pre cs).any more.isPrefixOf := by
  cases h : dropStart? pre cs with
  | some rest =>
    rw [eq_append_of_dropStart? h, Option.any_some, Bool.eq_iff_iff, List.isPrefixOf_iff_prefix,
      List.isPrefixOf_iff_prefix, List.prefix_append_right_inj]
  | none =>
    rw [Option.any_none, ← Bool.not_eq_true, List.isPrefixOf_iff_prefix]
    rintro ⟨rest, rfl⟩
    rw [List.append_assoc, dropStart?_append] at h
    cases h

theorem dropFinal?_eq_some_iff {post cs rest : List Char} :
    dropFinal? post cs = some rest ↔ cs = rest ++ post := by
  unfold dropFinal?
  split
  · rename_i hsuffix
    obtain ⟨front, rfl⟩ := List.isSuffixOf_iff_suffix.1 hsuffix
    rw [List.length_append, Nat.add_sub_cancel, List.take_left, Option.some_inj,
      List.append_left_inj]
  · rename_i hsuffix
    refine iff_of_false nofun ?_
    rintro rfl
    exact hsuffix (List.isSuffixOf_iff_suffix.2 (List.suffix_append rest post))

theorem dropFinal?_eq_none {post cs : List Char} (h : ∀ rest, cs ≠ rest ++ post) :
    dropFinal? post cs = none := by
  rw [← Option.not_isSome_iff_eq_none]
  intro hsome
  obtain ⟨rest, hrest⟩ := Option.isSome_iff_exists.1 hsome
  exact h rest (dropFinal?_eq_some_iff.1 hrest)

theorem bne_of_mem_reverse {cs : List Char} (h : sep ∉ cs) : ∀ c ∈ cs.reverse, (c != sep) = true := by
  intro c hc
  refine bne_iff_ne.2 ?_
  rintro rfl
  exact h (List.mem_reverse.1 hc)

/-- What holds no separator stands after the last one. -/
theorem afterLast_append_sep {last : List Char} (h : sep ∉ last) (cs : List Char) :
    afterLast sep (cs ++ sep :: last) = last := by
  rw [afterLast, List.reverse_append, List.reverse_cons, List.append_assoc, List.singleton_append,
    List.takeWhile_append_of_pos (bne_of_mem_reverse h), List.takeWhile_cons_of_neg (by simp),
    List.append_nil, List.reverse_reverse]

theorem afterLast_of_notMem {cs : List Char} (h : sep ∉ cs) : afterLast sep cs = cs := by
  rw [afterLast, List.takeWhile_eq_self_iff.2 (bne_of_mem_reverse h), List.reverse_reverse]

theorem dropWhile_of_head?_ne {cs : List Char} (h : cs.head? ≠ some sep) :
    cs.dropWhile (· == sep) = cs := by
  cases cs with
  | nil => rfl
  | cons c cs =>
    have hc : ¬ (c == sep) = true := fun hc => h (by rw [eq_of_beq hc]; rfl)
    rw [List.dropWhile_cons, if_neg hc]

end CodeAtlas.Text
