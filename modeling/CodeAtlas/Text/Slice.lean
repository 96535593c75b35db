/-!
# Cutting texts

Trimming, first and last segments, and splitting at single characters, all on lists of
characters. Each cut returns a piece of its input, so none is longer than what it was cut from.
-/

namespace CodeAtlas.Text

/-! ## Blank characters -/

/-- A character that trimming removes and that separates words: one with the property White_Space, or
one of the four separators U+001C to U+001F. -/
def isBlank (c : Char) : Bool :=
  let n := c.toNat
  (9 ≤ n && n ≤ 13) || (0x1c ≤ n && n ≤ 0x20) || n == 0x85 || n == 0xa0 || n == 0x1680 ||
    (0x2000 ≤ n && n ≤ 0x200a) || n == 0x2028 || n == 0x2029 || n == 0x202f || n == 0x205f ||
    n == 0x3000

/-- Every character that core counts as white space is blank. -/
theorem isBlank_of_isWhitespace {c : Char} (h : c.isWhitespace = true) : isBlank c = true := by
  simp only [Char.isWhitespace, Bool.or_eq_true, decide_eq_true_eq] at h
  rcases h with ((rfl | rfl) | rfl) | rfl <;> decide

/-! ## Trimming -/

/-- The text without its last characters as long as they satisfy `p`. -/
def dropEndWhile (p : Char → Bool) (cs : List Char) : List Char :=
  (cs.reverse.dropWhile p).reverse

/-- The text without the characters satisfying `p` at either end. -/
def trimWhile (p : Char → Bool) (cs : List Char) : List Char :=
  dropEndWhile p (cs.dropWhile p)

/-- The text without the blanks at either end. -/
def trim (cs : List Char) : List Char :=
  trimWhile isBlank cs

theorem length_dropWhile_le {α : Type} (p : α → Bool) (cs : List α) :
    (cs.dropWhile p).length ≤ cs.length :=
  (List.dropWhile_sublist p).length_le

theorem length_dropEndWhile_le (p : Char → Bool) (cs : List Char) :
    (dropEndWhile p cs).length ≤ cs.length := by
  have h := length_dropWhile_le p cs.reverse
  simpa [dropEndWhile] using h

theorem length_trimWhile_le (p : Char → Bool) (cs : List Char) :
    (trimWhile p cs).length ≤ cs.length :=
  Nat.le_trans (length_dropEndWhile_le _ _) (length_dropWhile_le _ _)

theorem length_trim_le (cs : List Char) : (trim cs).length ≤ cs.length :=
  length_trimWhile_le _ _

/-! ## Segments -/

/-- What stands after the last `sep`, the whole text if there is none. -/
def afterLast (sep : Char) (cs : List Char) : List Char :=
  (cs.reverse.takeWhile (· != sep)).reverse

/-- What stands before the first `sep`, the whole text if there is none. -/
def beforeFirst (sep : Char) (cs : List Char) : List Char :=
  cs.takeWhile (· != sep)

/-- The text without `pre` in front, if it starts with it. -/
def dropStart? (pre cs : List Char) : Option (List Char) :=
  if pre.isPrefixOf cs then some (cs.drop pre.length) else none

/-- The text without `post` at its end, if it ends with it. -/
def dropFinal? (post cs : List Char) : Option (List Char) :=
  if post.isSuffixOf cs then some (cs.take (cs.length - post.length)) else none

/-- The text without one line feed at its end. -/
def dropFinalNewline (cs : List Char) : List Char :=
  (dropFinal? ['\n'] cs).getD cs

theorem length_lt_of_dropStart? {pre cs rest : List Char} (hpre : pre ≠ [])
    (h : dropStart? pre cs = some rest) : rest.length < cs.length := by
  unfold dropStart? at h
  split at h
  · rename_i hp
    have hlen := (List.isPrefixOf_iff_prefix.1 hp).length_le
    have hpos := List.length_pos_iff.2 hpre
    cases h
    simp only [List.length_drop]
    omega
  · cases h

theorem length_lt_of_dropFinal? {post cs rest : List Char} (hpost : post ≠ [])
    (h : dropFinal? post cs = some rest) : rest.length < cs.length := by
  unfold dropFinal? at h
  split at h
  · rename_i hp
    have hlen := (List.isSuffixOf_iff_suffix.1 hp).length_le
    have hpos := List.length_pos_iff.2 hpost
    cases h
    simp only [List.length_take]
    omega
  · cases h

/-! ## Splitting -/

/-- The pieces between the characters satisfying `p`, empty ones kept. There is one more piece
than there are separators. -/
def splitWhere (p : Char → Bool) : List Char → List (List Char)
  | [] => [[]]
  | c :: rest =>
    if p c then [] :: splitWhere p rest
    else
      match splitWhere p rest with
      | [] => [[c]]
      | piece :: pieces => (c :: piece) :: pieces

theorem sublist_of_mem_splitWhere {p : Char → Bool} {cs piece : List Char}
    (h : piece ∈ splitWhere p cs) : piece.Sublist cs := by
  fun_induction splitWhere p cs generalizing piece with
  | case1 => exact List.mem_singleton.1 h ▸ List.nil_sublist []
  | case2 c rest hsep ih =>
    rcases List.mem_cons.1 h with rfl | h
    · exact List.nil_sublist _
    · exact (ih h).trans (List.sublist_cons_self c rest)
  | case3 c rest hsep hnone ih =>
    rw [List.mem_singleton.1 h]
    exact (List.nil_sublist rest).cons_cons c
  | case4 c rest hsep first pieces hfirst ih =>
    rcases List.mem_cons.1 h with rfl | h
    · exact (ih (hfirst ▸ List.mem_cons_self)).cons_cons c
    · exact (ih (hfirst ▸ List.mem_cons_of_mem first h)).trans (List.sublist_cons_self c rest)

/-- The pieces between the occurrences of `sep`, empty ones kept. -/
def splitAt (sep : Char) (cs : List Char) : List (List Char) :=
  splitWhere (· == sep) cs

/-- The words of a text: its longest pieces without a blank. -/
def words (cs : List Char) : List (List Char) :=
  (splitWhere isBlank cs).filter (· ≠ [])

/-- The pieces with `sep` between neighbours. -/
def joinWith (sep : List Char) (pieces : List (List Char)) : List Char :=
  sep.intercalate pieces

/-- Every run of blanks becomes one space; blanks at the ends go. -/
def squeeze (cs : List Char) : List Char :=
  joinWith [' '] (words cs)

/-- Every occurrence of one character replaced by another. -/
def replaceChar (old new : Char) (cs : List Char) : List Char :=
  cs.map fun c => if c == old then new else c

/-- The texts that a function on characters gives on strings. -/
def onString (f : List Char → List Char) (s : String) : String :=
  String.ofList (f s.toList)

end CodeAtlas.Text
