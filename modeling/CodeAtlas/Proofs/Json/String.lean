import CodeAtlas.Proofs.Json.Grammar
import Mathlib.Data.List.TakeWhile

/-!
# Reading strings

Blanks are told apart from what follows them, and a string is read up to its mark, each escape for
the character that it names (`spellsText_of_stringText?`, `stringText?_append`). A mark is no part
of an escape, so what comes after the string makes no difference.
-/

namespace CodeAtlas.Json

variable {cs rest text ds : List Char} {c : Char} {n fuel : Nat}

/-! ## 1. Blanks -/

theorem skipBlanks_append {bs : List Char} (h : IsBlank bs) (cs : List Char) :
    skipBlanks (bs ++ cs) = skipBlanks cs := by
  refine List.dropWhile_append_of_pos fun c hc => ?_
  rcases h c hc with rfl | rfl | rfl | rfl <;> decide

/-- Blanks in front are told apart from the rest. -/
theorem exists_isBlank (cs : List Char) : ∃ bs, IsBlank bs ∧ cs = bs ++ skipBlanks cs := by
  refine ⟨_, fun c hc => ?_, List.takeWhile_append_dropWhile.symm⟩
  have hblank := List.mem_takeWhile_imp hc
  simpa [or_assoc] using hblank

theorem skipBlanks_of_isBlank {bs : List Char} (h : IsBlank bs) : skipBlanks bs = [] := by
  rw [← List.append_nil bs, skipBlanks_append h]
  rfl

theorem skipBlanks_cons (h : ¬ IsBlank [c]) (cs : List Char) : skipBlanks (c :: cs) = c :: cs := by
  refine List.dropWhile_cons_of_neg fun hc => h fun c' hc' => ?_
  rw [List.mem_singleton.1 hc']
  simpa [or_assoc] using hc

/-- A mark behind blanks is what they are skipped up to. -/
theorem skipBlanks_append_cons {bs : List Char} (hbs : IsBlank bs) (h : ¬ IsBlank [c])
    (cs : List Char) : skipBlanks (bs ++ c :: cs) = c :: cs := by
  rw [skipBlanks_append hbs, skipBlanks_cons h]

theorem isBlank_singleton : IsBlank [c] ↔ c = ' ' ∨ c = '\t' ∨ c = '\n' ∨ c = '\r' := by
  simp [IsBlank]

/-! ## 2. Strings -/

theorem hex4?_eq_some_iff :
    hex4? cs = some (n, rest) ↔ ∃ ds, IsHex4 ds n ∧ cs = ds ++ rest := by
  constructor
  · intro h
    unfold hex4? at h
    split at h
    · rename_i a b c d more
      simp only [Option.bind_eq_bind, Option.bind_eq_some_iff, Option.pure_def, Option.some.injEq,
        Prod.mk.injEq] at h
      obtain ⟨w, hw, x, hx, y, hy, z, hz, rfl, rfl⟩ := h
      exact ⟨[a, b, c, d], ⟨a, b, c, d, w, x, y, z, rfl, hw, hx, hy, hz, rfl⟩, rfl⟩
    · cases h
  · rintro ⟨ds, ⟨a, b, c, d, w, x, y, z, rfl, hw, hx, hy, hz, rfl⟩, rfl⟩
    simp [hex4?, hw, hx, hy, hz]

/-- Four digits are no mark that ends a string. -/
theorem IsHex4.notMem_mark (h : IsHex4 ds n) : '"' ∉ ds := by
  obtain ⟨a, b, c, d, w, x, y, z, rfl, hw, hx, hy, hz, -⟩ := h
  have hmark : Text.hexValue? '"' = none := by decide
  intro hmem
  simp only [List.mem_cons, List.not_mem_nil, or_false] at hmem
  rcases hmem with rfl | rfl | rfl | rfl <;> simp_all

/-- The mark that ends a string is no part of an escape behind it. -/
theorem OpensLow.of_append (h : OpensLow (cs ++ '"' :: rest)) : OpensLow cs := by
  obtain ⟨ds, low, more, hds, hlow, hsplit⟩ := h
  have hmark : '"' ∉ '\\' :: 'u' :: ds := by
    simp only [List.mem_cons, not_or]
    exact ⟨by decide, by decide, hds.notMem_mark⟩
  -- Either the escape ends before the mark, or the mark would be one of its characters.
  rcases List.append_eq_append_iff.1 hsplit with ⟨as, hpre, hrest⟩ | ⟨as, hpre, -⟩
  · cases as with
    | nil => exact ⟨ds, low, [], hds, hlow, by rw [hpre, List.append_nil, List.append_nil]⟩
    | cons a as =>
      refine absurd ?_ hmark
      rw [hpre, (List.cons.inj hrest).1]
      exact List.mem_append_right cs List.mem_cons_self
  · exact ⟨ds, low, as, hds, hlow, hpre⟩

/-- Two halves in a row are one character. -/
theorem pairWith_of_pair {low : Nat} (hhigh : IsHigh n) (hds : IsHex4 ds low) (hlow : IsLow low)
    (rest : List Char) : pairWith n ('\\' :: 'u' :: ds ++ rest)
      = (0x10000 + (n - 0xd800) * 0x400 + (low - 0xdc00), rest) := by
  have hhex : hex4? (ds ++ rest) = some (low, rest) := hex4?_eq_some_iff.2 ⟨ds, hds, rfl⟩
  have hfirst : (0xd800 ≤ n && n < 0xdc00) = true := by simpa [IsHigh] using hhigh
  have hsecond : (0xdc00 ≤ low && low < 0xe000) = true := by simpa [IsLow] using hlow
  simp only [pairWith, hfirst, if_true, List.cons_append, hhex, hsecond]

/-- One unit is a character without another half. -/
theorem pairWith_of_lone (h : ¬ (IsHigh n ∧ OpensLow cs)) : pairWith n cs = (n, cs) := by
  unfold pairWith
  split
  · rename_i hfirst
    split
    · split
      · rename_i low after hhex
        split
        · rename_i hsecond
          obtain ⟨ds, hds, rfl⟩ := hex4?_eq_some_iff.1 hhex
          refine absurd ⟨by simpa [IsHigh] using hfirst, ds, low, after, hds, ?_, rfl⟩ h
          simpa [IsLow] using hsecond
        · rfl
      · rfl
    · rfl
  · rfl

/-- **What is read of a string is spelt.** The induction is on the fuel, one character a unit. -/
theorem spellsText_of_readString {taken out : List Char}
    (h : readString fuel taken cs = some (out, rest)) :
    ∃ body text, cs = body ++ '"' :: rest ∧ SpellsText body text ∧ out = taken.reverse ++ text := by
  induction fuel generalizing taken cs with
  | zero => cases h
  | succ fuel ih =>
    have hcons : ∀ {c : Char} {text : List Char},
        (c :: taken).reverse ++ text = taken.reverse ++ c :: text := by simp
    unfold readString at h
    split at h
    · cases h
    · cases h
      exact ⟨[], [], rfl, .nil, by rw [List.append_nil]⟩
    · split at h
      · rename_i first more hhex
        obtain ⟨ds, hds, rfl⟩ := hex4?_eq_some_iff.1 hhex
        -- The reader looks at the whole rest for a second half, the grammar at the body alone.
        by_cases hpair : IsHigh first ∧ OpensLow more
        · obtain ⟨hhigh, ds', low, after, hds', hlow, rfl⟩ := hpair
          rw [pairWith_of_pair hhigh hds' hlow] at h
          obtain ⟨body, text, rfl, hbody, rfl⟩ := ih h
          exact ⟨'\\' :: 'u' :: ds ++ ('\\' :: 'u' :: ds' ++ body), _, by simp,
            .pair hds hhigh hds' hlow hbody, hcons⟩
        · rw [pairWith_of_lone hpair] at h
          obtain ⟨body, text, rfl, hbody, rfl⟩ := ih h
          refine ⟨'\\' :: 'u' :: ds ++ body, _, by simp, .unit hds (fun hlone => ?_) hbody, hcons⟩
          obtain ⟨hhigh, ds', low, r, hds', hlow, rfl⟩ := hlone
          exact hpair ⟨hhigh, ds', low, r ++ '"' :: rest, hds', hlow, by simp⟩
      · cases h
    · split at h
      · rename_i letter more _ _ c hletter
        obtain ⟨body, text, rfl, hbody, rfl⟩ := ih h
        exact ⟨'\\' :: letter :: body, _, rfl, .letter hletter hbody, hcons⟩
      · cases h
    · split at h
      · cases h
      · rename_i c more hmark _ _ hplain
        obtain ⟨body, text, rfl, hbody, rfl⟩ := ih h
        rw [Bool.not_eq_true, Bool.or_eq_false_iff, decide_eq_false_iff_not, beq_eq_false_iff_ne,
          Nat.not_lt] at hplain
        exact ⟨c :: body, _, rfl, .plain ⟨hplain.1, hmark, hplain.2⟩ hbody, hcons⟩

theorem readString_plain (hc : 0x20 ≤ c.toNat ∧ c ≠ '"' ∧ c ≠ '\\') (taken cs : List Char) :
    readString (fuel + 1) taken (c :: cs) = readString fuel (c :: taken) cs := by
  have hplain : ¬ (decide (c.toNat < 0x20) || c == '\\') = true := by
    rw [Bool.not_eq_true, Bool.or_eq_false_iff, decide_eq_false_iff_not, beq_eq_false_iff_ne,
      Nat.not_lt]
    exact ⟨hc.1, hc.2.2⟩
  conv => lhs; unfold readString
  split
  · rename_i heq
    cases heq
  · rename_i heq
    exact absurd (List.cons.inj heq).1 hc.2.1
  · rename_i heq
    exact absurd (List.cons.inj heq).1 hc.2.2
  · rename_i heq
    exact absurd (List.cons.inj heq).1 hc.2.2
  · rename_i heq
    cases heq
    rw [if_neg hplain]

theorem readString_letter {letter : Char} (h : escaped? letter = some c) (taken cs : List Char) :
    readString (fuel + 1) taken ('\\' :: letter :: cs) = readString fuel (c :: taken) cs := by
  have hu : escaped? 'u' = none := by decide
  conv => lhs; unfold readString
  split
  · rename_i heq
    cases heq
  · rename_i heq
    exact absurd (List.cons.inj heq).1 (by decide)
  · rename_i heq
    cases heq
    rw [hu] at h
    cases h
  · rename_i heq
    cases heq
    simp only [h]
  · rename_i hletter heq
    cases heq
    exact absurd rfl (hletter letter cs rfl)

theorem readString_unit (hds : IsHex4 ds n) (taken cs : List Char) :
    readString (fuel + 1) taken ('\\' :: 'u' :: ds ++ cs)
      = readString fuel (Text.ofCodePoint (pairWith n cs).1 :: taken) (pairWith n cs).2 := by
  have hhex : hex4? (ds ++ cs) = some (n, cs) := hex4?_eq_some_iff.2 ⟨ds, hds, rfl⟩
  rw [List.cons_append, List.cons_append, readString]
  simp only [hhex]

/-- **What is spelt is read.** -/
theorem readString_append {body : List Char} (h : SpellsText body text) :
    ∀ {fuel : Nat} {taken : List Char}, body.length < fuel →
      readString fuel taken (body ++ '"' :: rest) = some (taken.reverse ++ text, rest) := by
  have hreverse : ∀ {c : Char} {taken text : List Char},
      (c :: taken).reverse ++ text = taken.reverse ++ c :: text := by simp
  induction h with
  | nil =>
    intro fuel taken hfuel
    cases fuel with
    | zero => cases hfuel
    | succ fuel => rw [List.nil_append, readString, List.append_nil]
  | plain hc _ ih =>
    intro fuel taken hfuel
    cases fuel with
    | zero => cases hfuel
    | succ fuel =>
      rw [List.cons_append, readString_plain hc, ih (Nat.lt_of_succ_lt_succ hfuel), hreverse]
  | letter hletter _ ih =>
    intro fuel taken hfuel
    cases fuel with
    | zero => cases hfuel
    | succ fuel =>
      rw [List.length_cons, List.length_cons] at hfuel
      rw [List.cons_append, List.cons_append, readString_letter hletter, ih (by omega), hreverse]
  | unit hds hlone _ ih =>
    intro fuel taken hfuel
    cases fuel with
    | zero => cases hfuel
    | succ fuel =>
      rw [List.length_append, List.length_cons, List.length_cons] at hfuel
      rw [List.append_assoc, readString_unit hds,
        pairWith_of_lone fun hpair => hlone ⟨hpair.1, hpair.2.of_append⟩, ih (by omega), hreverse]
  | pair hds hhigh hds' hlow _ ih =>
    intro fuel taken hfuel
    cases fuel with
    | zero => cases hfuel
    | succ fuel =>
      simp only [List.length_append, List.length_cons] at hfuel
      rw [List.append_assoc, readString_unit hds, List.append_assoc,
        pairWith_of_pair hhigh hds' hlow, ih (by omega), hreverse]

theorem stringText?_append {body : List Char} {text : String} (h : SpellsText body text.toList)
    (rest : List Char) : stringText? (body ++ '"' :: rest) = some (text, rest) := by
  have hfuel : body.length < (body ++ '"' :: rest).length + 1 := by
    rw [List.length_append]
    omega
  rw [stringText?, readString_append h hfuel]
  simp

theorem spellsText_of_stringText? {text : String} (h : stringText? cs = some (text, rest)) :
    ∃ body, cs = body ++ '"' :: rest ∧ SpellsText body text.toList := by
  obtain ⟨⟨out, more⟩, hread, heq⟩ := Option.map_eq_some_iff.1 h
  cases heq
  obtain ⟨body, text, rfl, hbody, rfl⟩ := spellsText_of_readString hread
  refine ⟨body, rfl, ?_⟩
  rwa [String.toList_ofList]

end CodeAtlas.Json
