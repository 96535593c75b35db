import CodeAtlas.Text.Slice

/-!
# Alternatives in braces

A group such as `{ts,tsx}` in a pattern stands for each of its alternatives. Every step resolves
the leftmost group without a group inside, so each pattern it leads to has one opening brace
less, and the expansion ends.
-/

namespace CodeAtlas.Glob

/-! ## Groups -/

/-- A brace, opening or closing. -/
def isBrace (c : Char) : Bool :=
  c == '\x7b' || c == '\x7d'

/-- The leftmost group without braces inside: what stands before it, in it and after it. -/
def findGroup? : List Char → Option (List Char × List Char × List Char)
  | [] => none
  | c :: rest =>
    let later := (findGroup? rest).map fun (head, body, tail) => (c :: head, body, tail)
    if c == '\x7b' then
      match rest.dropWhile (!isBrace ·) with
      | '\x7d' :: tail => some ([], rest.takeWhile (!isBrace ·), tail)
      | _ => later
    else later

/-! ## Opening braces -/

/-- The number of opening braces. -/
def openings (cs : List Char) : Nat :=
  cs.count '\x7b'

theorem openings_append (cs ds : List Char) : openings (cs ++ ds) = openings cs + openings ds :=
  List.count_append

theorem openings_cons_open (cs : List Char) : openings ('\x7b' :: cs) = openings cs + 1 :=
  List.count_cons_self

theorem openings_cons_close (cs : List Char) : openings ('\x7d' :: cs) = openings cs :=
  List.count_cons_of_ne (by decide)

theorem openings_takeWhile (cs : List Char) : openings (cs.takeWhile (!isBrace ·)) = 0 := by
  refine List.count_eq_zero.2 fun hmem => ?_
  have hbrace := List.all_eq_true.1 (List.all_takeWhile (l := cs)) _ hmem
  exact absurd hbrace (by decide)

/-- What stands before the first brace opens none. -/
theorem openings_dropWhile (cs : List Char) :
    openings (cs.dropWhile (!isBrace ·)) = openings cs := by
  have hsplit := openings_append (cs.takeWhile (!isBrace ·)) (cs.dropWhile (!isBrace ·))
  rw [List.takeWhile_append_dropWhile, openings_takeWhile, Nat.zero_add] at hsplit
  exact hsplit.symm

/-- A part of a text opens no more braces than the text. -/
theorem openings_le_of_sublist {cs ds : List Char} (h : cs.Sublist ds) :
    openings cs ≤ openings ds :=
  h.count_le _

/-- **A group lies in a text**: it opens no brace inside, and what is around it opens fewer braces
than the text. -/
structure IsGroupIn (cs head body tail : List Char) : Prop where
  body : openings body = 0
  around : openings head + openings tail < openings cs

/-- A group right at the start. -/
theorem isGroupIn_of_dropWhile {rest tail : List Char}
    (h : rest.dropWhile (!isBrace ·) = '\x7d' :: tail) :
    IsGroupIn ('\x7b' :: rest) [] (rest.takeWhile (!isBrace ·)) tail where
  body := openings_takeWhile rest
  around := by
    have htail : openings tail = openings rest := by
      rw [← openings_dropWhile rest, h, openings_cons_close]
    have hnil : openings [] = 0 := rfl
    rw [openings_cons_open, htail, hnil]
    omega

/-- A group further on. -/
theorem IsGroupIn.cons {cs head body tail : List Char} (h : IsGroupIn cs head body tail) (c : Char) :
    IsGroupIn (c :: cs) (c :: head) body tail where
  body := h.body
  around := by
    have hcs := openings_append [c] cs
    have hhead := openings_append [c] head
    rw [List.singleton_append] at hcs hhead
    have := h.around
    omega

/-- What is found is a group of the text. -/
theorem isGroupIn_of_findGroup? {cs head body tail : List Char}
    (h : findGroup? cs = some (head, body, tail)) : IsGroupIn cs head body tail := by
  induction cs generalizing head body tail with
  | nil => cases h
  | cons c rest ih =>
    have hlater (h : (findGroup? rest).map
        (fun x : List Char × List Char × List Char => (c :: x.1, x.2.1, x.2.2))
          = some (head, body, tail)) : IsGroupIn (c :: rest) head body tail := by
      obtain ⟨group, hgroup, heq⟩ := Option.map_eq_some_iff.1 h
      cases heq
      exact (ih hgroup).cons c
    unfold findGroup? at h
    dsimp only at h
    split at h
    · rename_i hopen
      obtain rfl := eq_of_beq hopen
      split at h
      · rename_i after hclose
        cases h
        exact isGroupIn_of_dropWhile hclose
      · exact hlater h
    · exact hlater h

/-- The pattern with a group replaced by one of its alternatives opens fewer braces. -/
theorem openings_lt_of_mem_splitAt {body option head tail cs : List Char}
    (hg : findGroup? cs = some (head, body, tail)) (ho : option ∈ Text.splitAt ',' body) :
    openings (head ++ option ++ tail) < openings cs := by
  obtain ⟨hbody, haround⟩ := isGroupIn_of_findGroup? hg
  have hoption := openings_le_of_sublist (Text.sublist_of_mem_splitWhere ho)
  rw [openings_append, openings_append]
  omega

/-! ## Expansion -/

/-- The patterns that a pattern with groups stands for. -/
def expandChars (cs : List Char) : List (List Char) :=
  match _h : findGroup? cs with
  | none => [cs]
  | some (head, body, tail) =>
    (Text.splitAt ',' body).attach.flatMap fun ⟨option, _⟩ =>
      expandChars (head ++ option ++ tail)
termination_by openings cs
decreasing_by exact openings_lt_of_mem_splitAt _h (by assumption)

/-- The patterns that a pattern with groups stands for, in the order of the alternatives. -/
def expandBraces (pattern : String) : List String :=
  (expandChars pattern.toList).map String.ofList

end CodeAtlas.Glob
