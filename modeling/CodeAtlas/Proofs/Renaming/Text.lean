import CodeAtlas.Proofs.Text.Bracket
import CodeAtlas.Proofs.Text.Name

/-!
# One name for another in a text

A renaming puts one name in place of another wherever that stands as a whole word
(`Renaming.text`). Words are the longest pieces of name characters, so a text is read word by word
(`word_induction`). Whatever cuts texts at other characters than those of names does the same before
and after (`dropWhile_text`, `afterLast_text`, `splitTopLevel_text`), and a word that is neither of the
two names is met before exactly where it is met after (`text_eq_iff`).
-/

namespace CodeAtlas

open Text
open CodeAtlas.TypeName (isIdentifierChar)

/-! ## 1. Words -/

/-- **A name**: some characters, all of which may stand in an identifier. -/
def IsName (w : List Char) : Prop :=
  w ≠ [] ∧ ∀ c ∈ w, isIdentifierChar c = true

instance (w : List Char) : Decidable (IsName w) :=
  inferInstanceAs (Decidable (_ ∧ _))

/-- No name goes on where a text starts. -/
def Ends (s : List Char) : Prop :=
  ∀ c ∈ s.head?, isIdentifierChar c = false

theorem ends_nil : Ends [] := nofun

theorem ends_cons {c : Char} (h : isIdentifierChar c = false) (s : List Char) : Ends (c :: s) := by
  rintro _ ⟨⟩
  exact h

theorem Ends.of_prefix {s t : List Char} (h : Ends t) (hst : s <+: t) : Ends s := by
  cases s with
  | nil => exact ends_nil
  | cons c s =>
    obtain ⟨rest, rfl⟩ := hst
    exact ends_cons (h c rfl) s

theorem Ends.append {s t : List Char} (hs : Ends s) (ht : Ends t) : Ends (s ++ t) := by
  cases s with
  | nil => exact ht
  | cons c s => exact ends_cons (hs c rfl) _

/-- **A text is read word by word.** -/
@[elab_as_elim]
theorem word_induction {motive : List Char → Prop} (nil : motive [])
    (word : ∀ w s, IsName w → Ends s → motive s → motive (w ++ s))
    (other : ∀ c s, isIdentifierChar c = false → motive s → motive (c :: s)) (s : List Char) :
    motive s := by
  -- on the length of the text, of which a word or one character is taken off
  induction hlength : s.length using Nat.strongRecOn generalizing s with
  | ind n ih =>
    subst hlength
    cases s with
    | nil => exact nil
    | cons c rest =>
      by_cases hc : isIdentifierChar c = true
      · have hsplit : c :: rest
            = (c :: rest.takeWhile isIdentifierChar) ++ rest.dropWhile isIdentifierChar := by
          rw [List.cons_append, List.takeWhile_append_dropWhile]
        have hshorter := length_dropWhile_le isIdentifierChar rest
        rw [hsplit]
        refine word _ _ ⟨List.cons_ne_nil _ _, fun d hd => ?_⟩ (fun d hd => ?_)
          (ih _ (Nat.lt_succ_of_le hshorter) _ rfl)
        · rcases List.mem_cons.1 hd with rfl | hd
          · exact hc
          · exact List.all_eq_true.1 List.all_takeWhile d hd
        · have hnot := List.head?_dropWhile_not isIdentifierChar rest
          rw [Option.mem_def.1 hd] at hnot
          exact hnot
      · exact other c rest (Bool.not_eq_true _ ▸ hc) (ih _ (Nat.lt_succ_self _) _ rfl)

/-- **A renaming**: a name, and the name to put in its place. -/
structure Renaming where
  old : List Char
  new : List Char
  isName_old : IsName old
  isName_new : IsName new

namespace Renaming

variable (r : Renaming) {s t w : List Char} {c : Char} {p : Char → Bool}

/-- A word under its new name. -/
def word (w : List Char) : List Char :=
  if w = r.old then r.new else w

/-- A text under the new name, behind a part of its first word. -/
def textFrom (w : List Char) : List Char → List Char
  | [] => r.word w
  | c :: s => if isIdentifierChar c then textFrom (w ++ [c]) s else r.word w ++ c :: textFrom [] s

/-- **A text with every word that is the old name replaced by the new one.** -/
def text (s : List Char) : List Char :=
  r.textFrom [] s

/-- The same for strings. -/
def string (s : String) : String :=
  onString r.text s

/-! ## 2. Equations -/

theorem word_nil : r.word [] = [] :=
  if_neg r.isName_old.1.symm

theorem isName_word (h : IsName w) : IsName (r.word w) := by
  unfold word
  split
  · exact r.isName_new
  · exact h

theorem text_nil : r.text [] = [] :=
  r.word_nil

theorem text_cons (h : isIdentifierChar c = false) (s : List Char) :
    r.text (c :: s) = c :: r.text s := by
  have hcons : r.text (c :: s) = r.word [] ++ c :: r.text s := if_neg (ne_true_of_eq_false h)
  rw [hcons, word_nil, List.nil_append]

theorem textFrom_append (hw : ∀ c ∈ w, isIdentifierChar c = true) (v s : List Char) :
    r.textFrom v (w ++ s) = r.textFrom (v ++ w) s := by
  induction w generalizing v with
  | nil => rw [List.nil_append, List.append_nil]
  | cons c w ih =>
    have hcons : r.textFrom v (c :: (w ++ s)) = r.textFrom (v ++ [c]) (w ++ s) :=
      if_pos (hw c List.mem_cons_self)
    rw [List.cons_append, hcons, ih (fun d hd => hw d (List.mem_cons_of_mem c hd)),
      List.append_assoc, List.singleton_append]

theorem textFrom_of_ends (h : Ends s) (v : List Char) : r.textFrom v s = r.word v ++ r.text s := by
  cases s with
  | nil => rw [text_nil, List.append_nil, textFrom]
  | cons c s =>
    rw [text_cons r (h c rfl)]
    exact if_neg (ne_true_of_eq_false (h c rfl))

/-- **A word and the text behind it.** -/
theorem text_word_append (hw : IsName w) (hs : Ends s) : r.text (w ++ s) = r.word w ++ r.text s := by
  rw [text, textFrom_append r hw.2, List.nil_append, textFrom_of_ends r hs]

theorem text_of_isName (hw : IsName w) : r.text w = r.word w := by
  have h := r.text_word_append hw ends_nil
  rwa [text_nil, List.append_nil, List.append_nil] at h

theorem ends_text (h : Ends s) : Ends (r.text s) := by
  cases s with
  | nil => exact r.text_nil.symm ▸ ends_nil
  | cons c s =>
    rw [text_cons r (h c rfl)]
    exact ends_cons (h c rfl) _

theorem text_eq_nil_iff : r.text s = [] ↔ s = [] := by
  refine ⟨fun h => ?_, fun h => h ▸ r.text_nil⟩
  induction s using word_induction with
  | nil => rfl
  | word w s hw hs _ =>
    rw [text_word_append r hw hs, List.append_eq_nil_iff] at h
    exact absurd h.1 (r.isName_word hw).1
  | other c s hc _ =>
    rw [text_cons r hc] at h
    cases h

/-- Texts are joined where no word goes on. -/
theorem text_append (ht : Ends t) (s : List Char) : r.text (s ++ t) = r.text s ++ r.text t := by
  induction s using word_induction with
  | nil => rw [text_nil, List.nil_append, List.nil_append]
  | word w s hw hs ih =>
    rw [List.append_assoc, text_word_append r hw (hs.append ht), ih, text_word_append r hw hs,
      List.append_assoc]
  | other c s hc ih => rw [List.cons_append, text_cons r hc, ih, text_cons r hc, List.cons_append]

theorem text_append_cons (hc : isIdentifierChar c = false) (s t : List Char) :
    r.text (s ++ c :: t) = r.text s ++ c :: r.text t := by
  rw [text_append r (ends_cons hc t), text_cons r hc]

/-- **Where the new text is cut** at a character that no name holds, the old one can be cut too. -/
theorem exists_of_text_eq_append_cons {x y : List Char} (hc : isIdentifierChar c = false)
    (h : r.text s = x ++ c :: y) : ∃ u v, s = u ++ c :: v ∧ r.text u = x ∧ r.text v = y := by
  induction s using word_induction generalizing x with
  | nil =>
    rw [text_nil] at h
    exact absurd h.symm (List.append_ne_nil_of_right_ne_nil x (List.cons_ne_nil c y))
  | word w s hw hs ih =>
    rw [text_word_append r hw hs] at h
    -- the cut lies behind the word, since the word does not hold the character
    rcases List.append_eq_append_iff.1 h with ⟨x', rfl, hrest⟩ | ⟨y', hword, hrest⟩
    · obtain ⟨u, v, rfl, rfl, rfl⟩ := ih hrest
      exact ⟨w ++ u, v, (List.append_assoc _ _ _).symm,
        text_word_append r hw (hs.of_prefix (List.prefix_append u _)), rfl⟩
    · cases y' with
      | nil =>
        obtain ⟨u, v, rfl, hu, rfl⟩ := ih (x := []) hrest.symm
        obtain rfl := r.text_eq_nil_iff.1 hu
        rw [List.append_nil] at hword
        exact ⟨w, v, rfl, by rw [text_of_isName r hw, hword], rfl⟩
      | cons d y' =>
        obtain ⟨rfl, -⟩ := List.cons.inj hrest
        have hmem : c ∈ r.word w := hword ▸ List.mem_append_right x List.mem_cons_self
        exact absurd ((r.isName_word hw).2 c hmem) (ne_true_of_eq_false hc)
  | other d s hd ih =>
    rw [text_cons r hd] at h
    cases x with
    | nil =>
      obtain ⟨rfl, rfl⟩ := List.cons.inj h
      exact ⟨[], s, rfl, r.text_nil, rfl⟩
    | cons e x =>
      obtain ⟨rfl, hrest⟩ := List.cons.inj h
      obtain ⟨u, v, rfl, rfl, rfl⟩ := ih hrest
      exact ⟨d :: u, v, rfl, text_cons r hd u, rfl⟩

/-- **Another word is met before exactly where it is met after.** -/
theorem text_eq_iff (hw : IsName w) (hold : w ≠ r.old) (hnew : w ≠ r.new) :
    r.text s = w ↔ s = w := by
  have hword : r.word w = w := if_neg hold
  refine ⟨fun h => ?_, fun h => by rw [h, text_of_isName r hw, hword]⟩
  induction s using word_induction with
  | nil => exact absurd (h.symm.trans r.text_nil) hw.1
  | word v s hv hs _ =>
    rw [text_word_append r hv hs] at h
    -- a text behind the word would start with a character that is not one of the name
    have hnil : r.text s = [] := by
      by_contra hne
      obtain ⟨d, rest, hd⟩ := List.exists_cons_of_ne_nil hne
      have hend : isIdentifierChar d = false := r.ends_text hs d (by rw [hd]; rfl)
      have hmem : d ∈ w := by
        rw [← h, hd]
        exact List.mem_append_right _ List.mem_cons_self
      exact absurd (hw.2 d hmem) (ne_true_of_eq_false hend)
    rw [hnil, List.append_nil] at h
    rw [r.text_eq_nil_iff.1 hnil, List.append_nil]
    unfold word at h
    split at h
    · exact absurd h.symm hnew
    · exact h
  | other d s hd _ =>
    rw [text_cons r hd] at h
    exact absurd (hw.2 d (h ▸ List.mem_cons_self)) (ne_true_of_eq_false hd)

/-! ## 3. Read backwards -/

/-- The renaming of the names read backwards. -/
def backwards : Renaming where
  old := r.old.reverse
  new := r.new.reverse
  isName_old := ⟨mt List.reverse_eq_nil_iff.1 r.isName_old.1,
    fun c hc => r.isName_old.2 c (List.mem_reverse.1 hc)⟩
  isName_new := ⟨mt List.reverse_eq_nil_iff.1 r.isName_new.1,
    fun c hc => r.isName_new.2 c (List.mem_reverse.1 hc)⟩

theorem word_backwards (w : List Char) : r.backwards.word w.reverse = (r.word w).reverse := by
  unfold word
  by_cases h : w = r.old
  · rw [if_pos h, if_pos (show w.reverse = r.backwards.old from congrArg List.reverse h)]
    rfl
  · rw [if_neg h, if_neg (show ¬ w.reverse = r.backwards.old from mt List.reverse_inj.1 h)]

/-- **A text may as well be read backwards.** -/
theorem text_backwards (s : List Char) : r.backwards.text s.reverse = (r.text s).reverse := by
  induction s using word_induction with
  | nil =>
    rw [List.reverse_nil, text_nil, text_nil, List.reverse_nil]
  | word w s hw hs ih =>
    have hback : IsName w.reverse := ⟨mt List.reverse_eq_nil_iff.1 hw.1,
      fun c hc => hw.2 c (List.mem_reverse.1 hc)⟩
    rw [List.reverse_append, text_word_append r hw hs, List.reverse_append, ← word_backwards, ← ih,
      ← text_of_isName r.backwards hback]
    -- the character behind the word stands in front of it now
    cases s with
    | nil => rw [List.reverse_nil, List.nil_append, text_nil, List.nil_append]
    | cons c s =>
      rw [List.reverse_cons, List.append_assoc, List.singleton_append,
        text_append_cons r.backwards (hs c rfl), text_append_cons r.backwards (hs c rfl), text_nil,
        List.append_assoc, List.singleton_append]
  | other c s hc ih =>
    rw [List.reverse_cons, text_append_cons r.backwards hc, text_nil, ih, text_cons r hc,
      List.reverse_cons]

/-! ## 4. Cuts at other characters -/

section Cuts

variable {v : Bool} (hp : ∀ c, isIdentifierChar c = true → p c = v)

include hp

theorem dropWhile_text (s : List Char) : (r.text s).dropWhile p = r.text (s.dropWhile p) := by
  induction s using word_induction with
  | nil => rw [text_nil, List.dropWhile_nil, text_nil]
  | word w s hw hs ih =>
    have hnew := r.isName_word hw
    cases v with
    | true =>
      rw [text_word_append r hw hs, List.dropWhile_append_of_pos fun c hc => hp c (hnew.2 c hc), ih,
        List.dropWhile_append_of_pos fun c hc => hp c (hw.2 c hc)]
    | false =>
      have hstop : ∀ {x : List Char}, IsName x → ∀ y, (x ++ y).dropWhile p = x ++ y := by
        intro x hx y
        obtain ⟨c, x, rfl⟩ := List.exists_cons_of_ne_nil hx.1
        exact List.dropWhile_cons_of_neg (ne_true_of_eq_false (hp c (hx.2 c List.mem_cons_self)))
      rw [text_word_append r hw hs, hstop hnew, hstop hw, text_word_append r hw hs]
  | other c s hc ih =>
    rw [text_cons r hc, List.dropWhile_cons, List.dropWhile_cons]
    split
    · exact ih
    · exact (text_cons r hc s).symm

theorem takeWhile_text (s : List Char) : (r.text s).takeWhile p = r.text (s.takeWhile p) := by
  induction s using word_induction with
  | nil => rw [text_nil, List.takeWhile_nil, text_nil]
  | word w s hw hs ih =>
    have hnew := r.isName_word hw
    cases v with
    | true =>
      rw [text_word_append r hw hs, List.takeWhile_append_of_pos fun c hc => hp c (hnew.2 c hc), ih,
        List.takeWhile_append_of_pos fun c hc => hp c (hw.2 c hc),
        text_word_append r hw (hs.of_prefix (List.takeWhile_prefix p))]
    | false =>
      have hstop : ∀ {x : List Char}, IsName x → ∀ y, (x ++ y).takeWhile p = [] := by
        intro x hx y
        obtain ⟨c, x, rfl⟩ := List.exists_cons_of_ne_nil hx.1
        exact List.takeWhile_cons_of_neg (ne_true_of_eq_false (hp c (hx.2 c List.mem_cons_self)))
      rw [text_word_append r hw hs, hstop hnew, hstop hw, text_nil]
  | other c s hc ih =>
    rw [text_cons r hc, List.takeWhile_cons, List.takeWhile_cons]
    split
    · rw [ih, text_cons r hc]
    · exact r.text_nil.symm

theorem dropEndWhile_text (s : List Char) : dropEndWhile p (r.text s) = r.text (dropEndWhile p s) := by
  rw [dropEndWhile, ← text_backwards, dropWhile_text r.backwards hp, dropEndWhile,
    ← List.reverse_reverse (s.reverse.dropWhile p), text_backwards, List.reverse_reverse,
    List.reverse_reverse]

theorem trimWhile_text (s : List Char) : trimWhile p (r.text s) = r.text (trimWhile p s) := by
  rw [trimWhile, dropWhile_text r hp, dropEndWhile_text r hp, trimWhile]

end Cuts

theorem trim_text (s : List Char) : trim (r.text s) = r.text (trim s) :=
  trimWhile_text r (fun _ => isBlank_of_isIdentifierChar) s

theorem afterLast_text {sep : Char} (hsep : isIdentifierChar sep = false) (s : List Char) :
    afterLast sep (r.text s) = r.text (afterLast sep s) := by
  rw [afterLast, ← text_backwards, takeWhile_text r.backwards fun _ => bne_of_isIdentifierChar hsep,
    afterLast, ← List.reverse_reverse (s.reverse.takeWhile _), text_backwards, List.reverse_reverse,
    List.reverse_reverse]

theorem beforeFirst_text {sep : Char} (hsep : isIdentifierChar sep = false) (s : List Char) :
    beforeFirst sep (r.text s) = r.text (beforeFirst sep s) :=
  takeWhile_text r (fun _ => bne_of_isIdentifierChar hsep) s

theorem head?_text_eq_some_iff (hc : isIdentifierChar c = false) :
    (r.text s).head? = some c ↔ s.head? = some c := by
  induction s using word_induction with
  | nil => rw [text_nil]
  | word w s hw hs _ =>
    have hno : ∀ {x : List Char}, IsName x → ∀ y, (x ++ y).head? ≠ some c := by
      intro x hx y
      obtain ⟨d, x, rfl⟩ := List.exists_cons_of_ne_nil hx.1
      rintro ⟨⟩
      exact ne_true_of_eq_false hc (hx.2 c List.mem_cons_self)
    rw [text_word_append r hw hs]
    exact iff_of_false (hno (r.isName_word hw) _) (hno hw _)
  | other d s hd _ => rw [text_cons r hd, List.head?_cons, List.head?_cons]

theorem head?_text_beq (hc : isIdentifierChar c = false) (s : List Char) :
    ((r.text s).head? == some c) = (s.head? == some c) := by
  rw [Bool.eq_iff_iff, beq_iff_eq, beq_iff_eq, head?_text_eq_some_iff r hc]

theorem getLast?_text_beq (hc : isIdentifierChar c = false) (s : List Char) :
    ((r.text s).getLast? == some c) = (s.getLast? == some c) := by
  rw [← List.head?_reverse, ← text_backwards, head?_text_beq r.backwards hc, List.head?_reverse]

theorem isEmpty_text (s : List Char) : (r.text s).isEmpty = s.isEmpty := by
  rw [Bool.eq_iff_iff, List.isEmpty_iff, List.isEmpty_iff, text_eq_nil_iff]

/-! ## 5. Words at the ends -/

/-- A text starts with another word and a character that no name holds. -/
theorem dropStart?_text (hw : IsName w) (hold : w ≠ r.old) (hnew : w ≠ r.new)
    (hc : isIdentifierChar c = false) (s : List Char) :
    dropStart? (w ++ [c]) (r.text s) = (dropStart? (w ++ [c]) s).map r.text := by
  cases h : dropStart? (w ++ [c]) s with
  | some rest =>
    have hkept : r.text w = w := (r.text_eq_iff hw hold hnew).2 rfl
    rw [eq_append_of_dropStart? h, List.append_assoc, List.singleton_append,
      text_append_cons r hc, hkept, List.append_cons w c (r.text rest), dropStart?_append,
      Option.map_some]
  | none =>
    rw [Option.map_none, ← Option.not_isSome_iff_eq_none]
    intro hsome
    obtain ⟨rest, hrest⟩ := Option.isSome_iff_exists.1 hsome
    have hsplit := eq_append_of_dropStart? hrest
    rw [List.append_assoc, List.singleton_append] at hsplit
    obtain ⟨u, v, rfl, hu, -⟩ := r.exists_of_text_eq_append_cons hc hsplit
    rw [(r.text_eq_iff hw hold hnew).1 hu, List.append_cons w c v, dropStart?_append] at h
    cases h

/-- A text starts in the same way, with what neither name starts with. -/
theorem isPrefixOf_text {pre : List Char} (hpre : IsName pre) (hold : ¬ pre <+: r.old)
    (hnew : ¬ pre <+: r.new) (s : List Char) : pre.isPrefixOf (r.text s) = pre.isPrefixOf s := by
  rw [Bool.eq_iff_iff, List.isPrefixOf_iff_prefix, List.isPrefixOf_iff_prefix]
  -- it stands in the first word, if at all
  have hfirst : ∀ {w s : List Char}, Ends s → (pre <+: w ++ s ↔ pre <+: w) := by
    intro w s hs
    refine ⟨fun h => ?_, fun h => h.trans (List.prefix_append w s)⟩
    rcases List.prefix_or_prefix_of_prefix h (List.prefix_append w s) with h' | ⟨more, rfl⟩
    · exact h'
    · cases more with
      | nil => rw [List.append_nil]
      | cons c more =>
        obtain ⟨rest, hrest⟩ := (List.prefix_append_right_inj w).1 h
        rw [← hrest] at hs
        have hc := hs c rfl
        rw [hpre.2 c (List.mem_append_right w List.mem_cons_self)] at hc
        cases hc
  induction s using word_induction with
  | nil => rw [text_nil]
  | word w s hw hs ih =>
    rw [text_word_append r hw hs, hfirst (r.ends_text hs), hfirst hs, word]
    split
    · rename_i hsame
      rw [hsame]
      exact iff_of_false hnew hold
    · exact Iff.rfl
  | other c s hc ih =>
    rw [text_cons r hc, ← List.nil_append (c :: r.text s), ← List.nil_append (c :: s),
      hfirst (ends_cons hc _), hfirst (ends_cons hc _)]

/-- **Where the new text ends** in characters that no name holds, the old one does too. -/
theorem exists_of_text_eq_append {x post : List Char}
    (hpost : ∀ c ∈ post, isIdentifierChar c = false) (h : r.text s = x ++ post) :
    ∃ u, s = u ++ post ∧ r.text u = x := by
  induction post generalizing s x with
  | nil =>
    rw [List.append_nil] at h
    exact ⟨s, (List.append_nil s).symm, h⟩
  | cons c post ih =>
    obtain ⟨u, v, rfl, rfl, hv⟩ :=
      r.exists_of_text_eq_append_cons (hpost c List.mem_cons_self) h
    obtain ⟨gap, rfl, hgap⟩ := ih (fun d hd => hpost d (List.mem_cons_of_mem c hd))
      (hv.trans (List.nil_append post).symm)
    rw [r.text_eq_nil_iff.1 hgap]
    exact ⟨u, rfl, rfl⟩

theorem text_append_of_forall {post : List Char} (hpost : ∀ c ∈ post, isIdentifierChar c = false)
    (s : List Char) : r.text (s ++ post) = r.text s ++ post := by
  induction post generalizing s with
  | nil => rw [List.append_nil, List.append_nil]
  | cons c post ih =>
    have hrest := fun d hd => hpost d (List.mem_cons_of_mem c hd)
    have hkept := ih hrest []
    rw [List.nil_append, text_nil, List.nil_append] at hkept
    rw [text_append_cons r (hpost c List.mem_cons_self), hkept]

theorem dropFinal?_text {post : List Char} (hpost : ∀ c ∈ post, isIdentifierChar c = false)
    (s : List Char) : dropFinal? post (r.text s) = (dropFinal? post s).map r.text := by
  cases h : dropFinal? post s with
  | some rest =>
    rw [dropFinal?_eq_some_iff.1 h, text_append_of_forall r hpost, Option.map_some,
      dropFinal?_eq_some_iff]
  | none =>
    rw [Option.map_none, ← Option.not_isSome_iff_eq_none]
    intro hsome
    obtain ⟨rest, hrest⟩ := Option.isSome_iff_exists.1 hsome
    obtain ⟨u, hu, -⟩ := r.exists_of_text_eq_append hpost (dropFinal?_eq_some_iff.1 hrest)
    rw [dropFinal?_eq_some_iff.2 hu] at h
    cases h

/-! ## 6. Pieces outside brackets -/

section Pieces

variable {sep : Char}

theorem topLevelPieces_cons_of_isIdentifierChar (hsep : isIdentifierChar sep = false)
    (hc : isIdentifierChar c = true) {depth : Int} {previous : Option Char} (s : List Char) :
    topLevelPieces sep depth previous (c :: s)
      = (topLevelPieces sep depth none s).modifyHead (c :: ·) := by
  have hshaft : (some c == some '=') = (none == some '=') :=
    beq_eq_false_iff_ne.2 (mt Option.some.inj (ne_of_isIdentifierChar (by decide) hc))
  have hno : ¬ (c == sep && depth == 0) = true := by
    rw [beq_eq_false_iff_ne.2 (ne_of_isIdentifierChar hsep hc)]
    exact Bool.false_ne_true
  rw [topLevelPieces, depthAfter_of_isIdentifierChar hc, if_neg hno, topLevelPieces_congr hshaft]
  obtain ⟨piece, pieces, hpieces⟩ :=
    List.exists_cons_of_ne_nil (topLevelPieces_ne_nil sep depth none s)
  rw [hpieces]
  rfl

/-- A word in front of a text stands in front of its first piece. -/
theorem topLevelPieces_word_append (hsep : isIdentifierChar sep = false) (hw : IsName w)
    {depth : Int} {previous : Option Char} (s : List Char) :
    topLevelPieces sep depth previous (w ++ s)
      = (topLevelPieces sep depth none s).modifyHead (w ++ ·) := by
  obtain ⟨hne, hall⟩ := hw
  induction w generalizing previous with
  | nil => exact absurd rfl hne
  | cons c w ih =>
    rw [List.cons_append, topLevelPieces_cons_of_isIdentifierChar hsep (hall c List.mem_cons_self)]
    cases w with
    | nil => rfl
    | cons d w =>
      rw [ih (List.cons_ne_nil d w) fun e he => hall e (List.mem_cons_of_mem c he),
        List.modifyHead_modifyHead]
      rfl

/-- Where no name goes on, none goes on with the first piece. -/
theorem ends_of_topLevelPieces {depth : Int} {previous : Option Char} {piece : List Char}
    {pieces : List (List Char)} (hs : Ends s)
    (h : topLevelPieces sep depth previous s = piece :: pieces) : Ends piece := by
  cases s with
  | nil =>
    cases h
    exact ends_nil
  | cons c s =>
    rw [topLevelPieces] at h
    split at h
    · cases h
      exact ends_nil
    · obtain ⟨first, rest, hrest⟩ := List.exists_cons_of_ne_nil
        (topLevelPieces_ne_nil sep (depthAfter depth previous c) (some c) s)
      rw [hrest] at h
      cases h
      exact ends_cons (hs c rfl) first

/-- **The pieces under the new name** are those of the text, each renamed. -/
theorem topLevelPieces_text (hsep : isIdentifierChar sep = false) {depth : Int}
    {previous : Option Char} (s : List Char) :
    topLevelPieces sep depth previous (r.text s)
      = (topLevelPieces sep depth previous s).map r.text := by
  induction s using word_induction generalizing depth previous with
  | nil =>
    rw [text_nil]
    exact congrArg (fun piece => [piece]) r.text_nil.symm
  | word w s hw hs ih =>
    rw [text_word_append r hw hs, topLevelPieces_word_append hsep (r.isName_word hw), ih,
      topLevelPieces_word_append hsep hw]
    obtain ⟨piece, pieces, hpieces⟩ :=
      List.exists_cons_of_ne_nil (topLevelPieces_ne_nil sep depth none s)
    have hpiece := ends_of_topLevelPieces hs hpieces
    rw [hpieces]
    exact congrArg (· :: pieces.map r.text) (text_word_append r hw hpiece).symm
  | other c s hc ih =>
    rw [text_cons r hc, topLevelPieces, topLevelPieces, ih]
    obtain ⟨piece, pieces, hpieces⟩ := List.exists_cons_of_ne_nil
      (topLevelPieces_ne_nil sep (depthAfter depth previous c) (some c) s)
    rw [hpieces]
    split
    · exact congrArg (· :: (piece :: pieces).map r.text) r.text_nil.symm
    · exact congrArg (· :: pieces.map r.text) (text_cons r hc piece).symm

theorem splitTopLevel_text (hsep : isIdentifierChar sep = false) (s : List Char) :
    splitTopLevel sep (r.text s) = (splitTopLevel sep s).map r.text := by
  have htrim : trim ∘ r.text = r.text ∘ trim := funext r.trim_text
  have hempty : (fun x : List Char => decide (x ≠ [])) ∘ r.text = fun x => decide (x ≠ []) :=
    funext fun x => decide_eq_decide.2 (not_congr r.text_eq_nil_iff)
  rw [splitTopLevel, topLevelPieces_text r hsep, List.map_map, htrim, ← List.map_map,
    List.filter_map, hempty, splitTopLevel]

end Pieces

/-! ## 7. Once and for all -/

theorem word_word (w : List Char) : r.word (r.word w) = r.word w := by
  unfold word
  by_cases h : w = r.old
  · rw [if_pos h, ite_self]
  · rw [if_neg h, if_neg h]

/-- **A renaming done twice is done once.** -/
theorem text_text (s : List Char) : r.text (r.text s) = r.text s := by
  induction s using word_induction with
  | nil => rw [text_nil, text_nil]
  | word w s hw hs ih =>
    rw [text_word_append r hw hs, text_word_append r (r.isName_word hw) (r.ends_text hs), ih,
      word_word]
  | other c s hc ih => rw [text_cons r hc, text_cons r hc, ih]

/-! ## 8. Texts that are left alone -/

/-- The pieces of a text between the characters that no name holds. -/
def namesIn (s : List Char) : List (List Char) :=
  splitWhere (fun c => !isIdentifierChar c) s

theorem namesIn_word_append (hw : IsName w) (hs : Ends s) :
    namesIn (w ++ s) = w :: (namesIn s).tail := by
  have hall : ∀ d ∈ w, ¬ (!isIdentifierChar d) = true := fun d hd => by
    rw [hw.2 d hd]
    exact Bool.false_ne_true
  cases s with
  | nil =>
    rw [List.append_nil]
    exact splitWhere_of_forall_not hall
  | cons c s =>
    have hc : (!isIdentifierChar c) = true := by
      rw [hs c rfl]
      rfl
    rw [namesIn, splitWhere_append_sep hall hc, namesIn, splitWhere_cons_of_sep hc, List.tail_cons]

theorem namesIn_cons (hc : isIdentifierChar c = false) (s : List Char) :
    namesIn (c :: s) = [] :: namesIn s := by
  refine splitWhere_cons_of_sep ?_ s
  rw [hc]
  rfl

/-- The names in a text are renamed one by one. -/
theorem namesIn_text (s : List Char) : namesIn (r.text s) = (namesIn s).map r.word := by
  induction s using word_induction with
  | nil =>
    rw [text_nil]
    exact congrArg (fun w => [w]) r.word_nil.symm
  | word w s hw hs ih =>
    rw [text_word_append r hw hs, namesIn_word_append (r.isName_word hw) (r.ends_text hs), ih,
      namesIn_word_append hw hs, List.map_cons, List.map_tail]
  | other c s hc ih =>
    rw [text_cons r hc, namesIn_cons hc, namesIn_cons hc, ih, List.map_cons, word_nil]

theorem text_eq_self (h : r.old ∉ namesIn s) : r.text s = s := by
  induction s using word_induction with
  | nil => exact r.text_nil
  | word w s hw hs ih =>
    rw [namesIn_word_append hw hs, List.mem_cons, not_or] at h
    have hrest : r.old ∉ namesIn s := by
      cases s with
      | nil => exact fun hmem => r.isName_old.1 (List.mem_singleton.1 hmem)
      | cons c s =>
        rw [namesIn_cons (hs c rfl), List.tail_cons] at h
        rw [namesIn_cons (hs c rfl), List.mem_cons, not_or]
        exact ⟨r.isName_old.1, h.2⟩
    rw [text_word_append r hw hs, ih hrest, word, if_neg (Ne.symm h.1)]
  | other c s hc ih =>
    rw [namesIn_cons hc, List.mem_cons, not_or] at h
    rw [text_cons r hc, ih h.2]

/-- **A renaming is clear of a text**: neither name stands in it. -/
def IsClearOf (s : String) : Prop :=
  r.old ∉ namesIn s.toList ∧ r.new ∉ namesIn s.toList

instance (s : String) : Decidable (r.IsClearOf s) :=
  inferInstanceAs (Decidable (_ ∧ _))

theorem text_eq_iff_of_isClearOf {w : String} (h : r.IsClearOf w) :
    r.text s = w.toList ↔ s = w.toList := by
  obtain ⟨hold, hnew⟩ := h
  refine ⟨fun htext => ?_, fun hs => by rw [hs, text_eq_self r hold]⟩
  -- the old name would stand in the text under the new one
  have hnone : r.old ∉ namesIn s := by
    intro hmem
    refine hnew ?_
    rw [← htext, namesIn_text]
    exact List.mem_map.2 ⟨r.old, hmem, if_pos rfl⟩
  rw [← htext, text_eq_self r hnone]

end Renaming

end CodeAtlas
