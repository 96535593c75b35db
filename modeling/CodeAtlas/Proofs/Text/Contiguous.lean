import CodeAtlas.Proofs.Text.Split
import CodeAtlas.Text.Bracket
import Mathlib.Data.List.Infix

/-!
# Cuts are contiguous

Whatever is cut out of a text stands in it in one piece. Trimming and the cuts at the ends take a
prefix or a suffix. The pieces between the separators outside brackets give the text when they are
joined again (`joinWith_topLevelPieces`), so that each of them is contiguous too
(`infix_of_mem_splitTopLevel`).
-/

namespace CodeAtlas.Text

variable {p : Char → Bool} {sep : Char} {cs rest : List Char}

/-! ## 1. Trimming and segments -/

theorem prefix_dropEndWhile (p : Char → Bool) (cs : List Char) : dropEndWhile p cs <+: cs := by
  rw [dropEndWhile, ← List.reverse_suffix, List.reverse_reverse]
  exact List.dropWhile_suffix p

theorem infix_trimWhile (p : Char → Bool) (cs : List Char) : trimWhile p cs <:+: cs :=
  (prefix_dropEndWhile p _).isInfix.trans (List.dropWhile_suffix p).isInfix

theorem infix_trim (cs : List Char) : trim cs <:+: cs :=
  infix_trimWhile isBlank cs

theorem suffix_afterLast (sep : Char) (cs : List Char) : afterLast sep cs <:+ cs := by
  rw [afterLast, ← List.reverse_prefix, List.reverse_reverse]
  exact List.takeWhile_prefix _

theorem suffix_of_dropStart? {pre : List Char} (h : dropStart? pre cs = some rest) :
    rest <:+ cs := by
  rw [eq_append_of_dropStart? h]
  exact List.suffix_append pre rest

theorem prefix_of_dropFinal? {post : List Char} (h : dropFinal? post cs = some rest) :
    rest <+: cs := by
  unfold dropFinal? at h
  split at h
  · rw [← Option.some.inj h]
    exact List.take_prefix _ cs
  · cases h

/-! ## 2. Pieces outside brackets -/

/-- A piece stands in what the pieces are joined to. -/
theorem infix_joinWith {pieces : List (List Char)} {piece : List Char} (h : piece ∈ pieces) :
    piece <:+: joinWith [sep] pieces := by
  obtain ⟨before, after, rfl⟩ := List.append_of_mem h
  have hrest : piece <+: joinWith [sep] (piece :: after) := by
    cases after with
    | nil =>
      rw [joinWith_singleton]
    | cons next after =>
      rw [joinWith_cons_cons]
      exact List.prefix_append piece _
  cases before with
  | nil => exact hrest.isInfix
  | cons first before =>
    rw [joinWith_append (List.cons_ne_nil first before) (List.cons_ne_nil piece after),
      List.append_cons]
    exact hrest.isInfix.trans (List.suffix_append _ _).isInfix

theorem topLevelPieces_ne_nil (sep : Char) (depth : Int) (previous : Option Char)
    (cs : List Char) : topLevelPieces sep depth previous cs ≠ [] := by
  cases cs with
  | nil => exact List.cons_ne_nil _ _
  | cons c cs =>
    rw [topLevelPieces]
    split
    · exact List.cons_ne_nil _ _
    · unfold consPiece
      split <;> exact List.cons_ne_nil _ _

/-- A character in front of the first piece stands in front of the text. -/
theorem joinWith_consPiece {pieces : List (List Char)} (h : pieces ≠ []) (c : Char) :
    joinWith [sep] (consPiece c pieces) = c :: joinWith [sep] pieces := by
  obtain ⟨piece, pieces, rfl⟩ := List.exists_cons_of_ne_nil h
  rw [consPiece]
  cases pieces with
  | nil => rw [joinWith_singleton, joinWith_singleton]
  | cons next pieces => rw [joinWith_cons_cons, joinWith_cons_cons, List.cons_append]

/-- **Joining the pieces gives the text back**, whatever brackets it has. -/
theorem joinWith_topLevelPieces (sep : Char) (depth : Int) (previous : Option Char)
    (cs : List Char) : joinWith [sep] (topLevelPieces sep depth previous cs) = cs := by
  induction cs generalizing depth previous with
  | nil => rw [topLevelPieces, joinWith_singleton]
  | cons c cs ih =>
    have hrest := ih (depthAfter depth previous c) (some c)
    have hne := topLevelPieces_ne_nil sep (depthAfter depth previous c) (some c) cs
    rw [topLevelPieces]
    split
    · rename_i hsep
      obtain ⟨piece, pieces, hpieces⟩ := List.exists_cons_of_ne_nil hne
      rw [hpieces] at hrest ⊢
      rw [joinWith_cons_cons, hrest, List.nil_append, eq_of_beq (Bool.and_eq_true_iff.1 hsep).1]
    · rw [joinWith_consPiece hne, hrest]

/-- **The pieces of a split stand in the text.** -/
theorem infix_of_mem_splitTopLevel {piece : List Char} (h : piece ∈ splitTopLevel sep cs) :
    piece <:+: cs := by
  obtain ⟨raw, hraw, rfl⟩ := List.mem_map.1 (List.mem_filter.1 h).1
  have hjoined : raw <:+: joinWith [sep] (topLevelPieces sep 0 none cs) := infix_joinWith hraw
  rw [joinWith_topLevelPieces] at hjoined
  exact (infix_trim raw).trans hjoined

end CodeAtlas.Text
