import CodeAtlas.Text.Hex

/-!
# Halves of surrogate pairs

A format that escapes characters by their UTF-16 units can name half of a pair alone, which is no
character. Such a half is kept as a character of the last private plane, so that it lasts until it
is written again.
-/

namespace CodeAtlas.Text

/-- Half of a surrogate pair. -/
def isHalf (n : Nat) : Bool :=
  0xd800 ≤ n && n < 0xe000

/-- The distance between a half and the character that stands for it. -/
def halfOffset : Nat := 0x100000

/-- The character of a code point, or the one that stands for a half. -/
def ofCodePoint (n : Nat) : Char :=
  Char.ofNat (if isHalf n then halfOffset + n else n)

/-- The half that a character stands for. -/
def half? (c : Char) : Option Nat :=
  if isHalf (c.toNat - halfOffset) then some (c.toNat - halfOffset) else none

/-- A half comes back as it was. -/
theorem half?_ofCodePoint {n : Nat} (h : isHalf n = true) : half? (ofCodePoint n) = some n := by
  have hn : 0xd800 ≤ n ∧ n < 0xe000 := by simpa [isHalf] using h
  have hv : (Char.ofNat (halfOffset + n)).toNat = halfOffset + n := by
    have hvalid : (halfOffset + n).isValidChar := by
      simp only [Nat.isValidChar, halfOffset]
      omega
    rw [Char.ofNat, dif_pos hvalid]
    rfl
  simp [half?, ofCodePoint, h, hv]

/-- A half as an escape. -/
def halfEscape (n : Nat) : List Char :=
  '\\' :: 'u' :: hex 4 n

/-- The text with every half as an escape. -/
def escapeHalves (cs : List Char) : List Char :=
  cs.flatMap fun c => ((half? c).map halfEscape).getD [c]

end CodeAtlas.Text
