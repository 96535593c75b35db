import CodeAtlas.Text.Bracket
import CodeAtlas.TypeName

/-!
# Characters of names

The characters of identifiers are no blanks and no brackets (`isBlank_of_isIdentifierChar`,
`depthAfter_of_isIdentifierChar`), and different from every other character. Only the blanks need an
argument: the table of letters is large, so each of its rows is compared with the few blanks.
-/

namespace CodeAtlas

open Text
open CodeAtlas.TypeName (isIdentifierChar)

/-- What is said of the characters of a text is decided one by one. There are finitely many characters,
and going through all of them takes too long. -/
instance (priority := high) decidableForallMemChar (p : Char → Prop) [DecidablePred p]
    (s : List Char) : Decidable (∀ c ∈ s, p c) :=
  List.decidableBAll p s

variable {c sep : Char}

/-- The code points of the blanks. -/
private def blankPoints : List Nat :=
  [9, 10, 11, 12, 13, 0x1c, 0x1d, 0x1e, 0x1f, 0x20, 0x85, 0xa0, 0x1680, 0x2000, 0x2001, 0x2002,
    0x2003, 0x2004, 0x2005, 0x2006, 0x2007, 0x2008, 0x2009, 0x200a, 0x2028, 0x2029, 0x202f, 0x205f,
    0x3000]

/-- No row of the table of letters and numbers has a blank in it. -/
private theorem inTable_wordTable_of_mem {c : Char} (h : c.toNat ∈ blankPoints) :
    inTable wordTable c = false := by
  have hrows : (wordTable.toList.all fun row => blankPoints.all fun n => !inRange n row) = true := by
    decide +kernel
  rw [inTable, ← Array.any_toList, List.any_eq_false]
  intro row hrow
  have hnot := List.all_eq_true.1 (List.all_eq_true.1 hrows row hrow) _ h
  rwa [Bool.not_eq_true', ← Bool.not_eq_true] at hnot

theorem isBlank_of_isIdentifierChar (h : isIdentifierChar c = true) : isBlank c = false := by
  rw [← Bool.not_eq_true]
  intro hblank
  have hpoint : c.toNat ∈ blankPoints := by
    simp only [isBlank, Bool.or_eq_true, Bool.and_eq_true, decide_eq_true_eq, beq_iff_eq] at hblank
    simp only [blankPoints, List.mem_cons, List.not_mem_nil, or_false]
    omega
  by_cases hlow : c.toNat < 0x80
  · have hpoints : ∀ n ∈ blankPoints, n < 0x80 → isIdentifierChar (Char.ofNat n) = false := by decide
    have hno := hpoints _ hpoint hlow
    rw [Char.ofNat_toNat, h] at hno
    cases hno
  · rw [isIdentifierChar, isWord, if_neg hlow, inTable_wordTable_of_mem hpoint, Bool.false_or,
      beq_iff_eq] at h
    exact hlow (h ▸ by decide)

theorem ne_of_isIdentifierChar (hsep : isIdentifierChar sep = false)
    (h : isIdentifierChar c = true) : c ≠ sep := by
  rintro rfl
  exact ne_true_of_eq_false hsep h

theorem bne_of_isIdentifierChar (hsep : isIdentifierChar sep = false)
    (h : isIdentifierChar c = true) : (c != sep) = true :=
  bne_iff_ne.2 (ne_of_isIdentifierChar hsep h)

theorem not_isBracket_of_isIdentifierChar (h : isIdentifierChar c = true) :
    isOpening c = false ∧ isClosing c = false := by
  have hother : ∀ d ∈ ['<', '[', '(', '\x7b', '>', ']', ')', '\x7d'], (c == d) = false := by
    intro d hd
    have hd' : isIdentifierChar d = false := by
      revert d
      decide
    exact beq_eq_false_iff_ne.2 (ne_of_isIdentifierChar hd' h)
  simp only [List.forall_mem_cons] at hother
  simp only [isOpening, isClosing, hother, Bool.or_self, and_self]

theorem depthAfter_of_isIdentifierChar (h : isIdentifierChar c = true) (depth : Int)
    (previous : Option Char) : depthAfter depth previous c = depth := by
  obtain ⟨hopening, hclosing⟩ := not_isBracket_of_isIdentifierChar h
  rw [depthAfter, hopening, hclosing]
  rfl

theorem TypeName.isIdentifierChar_of_isIdentifierStart (h : isIdentifierStart c = true) :
    isIdentifierChar c = true := by
  simp only [isIdentifierStart, Bool.or_eq_true, beq_iff_eq] at h
  rcases h with (h | rfl) | rfl
  · have hlow : c.toNat < 0x80 := by
      have hcase : (c.isUpper || c.isLower) = true := h
      rcases Bool.or_eq_true_iff.1 hcase with hupper | hlower
      · have hZ : c.val ≤ 90 := (of_decide_eq_true hupper).2
        exact Nat.lt_of_le_of_lt (UInt32.le_iff_toNat_le.1 hZ) (by decide)
      · have hz : c.val ≤ 122 := of_decide_eq_true (Bool.and_eq_true_iff.1 hlower).2
        exact Nat.lt_of_le_of_lt (UInt32.le_iff_toNat_le.1 hz) (by decide)
    have halphanum : c.isAlphanum = true := Bool.or_eq_true_iff.2 (.inl h)
    rw [isIdentifierChar, isWord, if_pos hlow, halphanum]
    rfl
  · decide
  · decide

end CodeAtlas
