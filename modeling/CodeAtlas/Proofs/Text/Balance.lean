import CodeAtlas.Proofs.Text.Bracket
import Mathlib.Data.List.DropRight

/-!
# Joined texts and their parts

The counter of a split is the balance of what it has passed: the brackets that open, less those that
close, where the head of an arrow closes nothing (`balance`). The balance is counted without a scan, and
`scan_eq_some_iff` says that a scan follows it. So the parts that a split gives back can be told without
running one (`IsPart`): no separator of a part stands where the part is balanced up to there. What the
balance is in between does not matter, it may well go below zero.

The other way round nothing is said of which pieces a text that is not balanced falls into, only that
each of them stands in the text as it is.
-/

namespace CodeAtlas.Text

variable {sep c : Char} {cs text part : List Char} {parts : List (List Char)} {final : Int}

/-! ## 1. The balance of a text -/

/-- How many arrows `=>` a text has. -/
def arrows : List Char → Nat
  | a :: b :: rest => (if a = '=' ∧ b = '>' then 1 else 0) + arrows (b :: rest)
  | _ => 0

/-- **The balance of a text**: its opening brackets less its closing ones, heads of arrows apart. -/
def balance (cs : List Char) : Int :=
  cs.countP isOpening - (cs.countP isClosing - arrows cs)

theorem arrows_concat (cs : List Char) (c : Char) :
    arrows (cs ++ [c]) = arrows cs + if cs.getLast? = some '=' ∧ c = '>' then 1 else 0 := by
  fun_induction arrows cs with
  | case1 a b rest ih =>
    rw [List.cons_append, List.cons_append, arrows, ← List.cons_append, ih, List.getLast?_cons_cons,
      Nat.add_assoc]
  | case2 cs hshort =>
    cases cs with
    | nil => simp [arrows]
    | cons a rest =>
      cases rest with
      | nil => simp [arrows]
      | cons b rest => exact absurd rfl (hshort a b rest)

/-- **One character more** moves the balance as it moves the counter. -/
theorem balance_concat (cs : List Char) (c : Char) :
    balance (cs ++ [c]) = depthAfter (balance cs) cs.getLast? c := by
  have hcount : ∀ p : Char → Bool,
      ((cs ++ [c]).countP p : Int) = cs.countP p + if p c then 1 else 0 := by
    intro p
    rw [List.countP_append, List.countP_singleton]
    split <;> rfl
  rw [balance, hcount, hcount, arrows_concat]
  by_cases hhead : cs.getLast? = some '=' ∧ c = '>'
  -- the head of an arrow closes and is an arrow, which comes to nothing
  · rw [if_pos hhead]
    obtain ⟨hshaft, rfl⟩ := hhead
    have hstays : depthAfter (balance cs) (some '=') '>' = balance cs := rfl
    have hopening : isOpening '>' = false := rfl
    have hclosing : isClosing '>' = true := rfl
    rw [hshaft, hstays, balance, hopening, hclosing, if_neg Bool.false_ne_true, if_pos rfl]
    omega
  · have harrow : (c == '>' && cs.getLast? == some '=') = false := by
      rw [Bool.eq_false_iff, Ne, Bool.and_eq_true, beq_iff_eq, beq_iff_eq]
      exact fun h => hhead h.symm
    rw [if_neg hhead, depthAfter, harrow, balance, Bool.not_false, Bool.and_true]
    cases hopening : isOpening c with
    | true =>
      rw [isClosing_of_isOpening hopening, if_pos rfl, if_pos rfl, if_neg Bool.false_ne_true]
      omega
    | false =>
      rw [if_neg Bool.false_ne_true, if_neg Bool.false_ne_true]
      split <;> omega

/-! ## 2. What a scan tells -/

/-- **A text falls apart at a separator** that stands where the text is balanced up to there. -/
def FallsApart (sep : Char) (cs : List Char) : Prop :=
  ∃ before after, cs = before ++ sep :: after ∧ balance before = 0

theorem not_fallsApart_nil : ¬ FallsApart sep [] := by
  rintro ⟨before, after, h, -⟩
  exact List.append_ne_nil_of_right_ne_nil before (List.cons_ne_nil sep after) h.symm

/-- The new separator is the last character, or it is one that was there. -/
theorem fallsApart_concat :
    FallsApart sep (cs ++ [c]) ↔ FallsApart sep cs ∨ (c = sep ∧ balance cs = 0) := by
  constructor
  · rintro ⟨before, after, h, hbalance⟩
    rcases concat_eq_append_cons.1 h with ⟨-, rfl, hc⟩ | ⟨rest, -, hcs⟩
    · exact Or.inr ⟨hc, hbalance⟩
    · exact Or.inl ⟨before, rest, hcs, hbalance⟩
  · rintro (⟨before, after, rfl, hbalance⟩ | ⟨rfl, hbalance⟩)
    · exact ⟨before, after ++ [c], by simp, hbalance⟩
    · exact ⟨cs, [], rfl, hbalance⟩

/-- A scan of one character gives where the counter goes, if the character does not separate there. -/
theorem scan_singleton {depth : Int} {previous : Option Char} (hsep : IsSeparator sep) :
    scan sep depth previous [c] = some final ↔
      ¬ (c = sep ∧ depth = 0) ∧ depthAfter depth previous c = final := by
  rw [scan, scan]
  by_cases hc : c = sep
  · subst hc
    rw [depthAfter_of_isSeparator hsep]
    by_cases hdepth : depth = 0 <;> simp [hdepth]
  · simp [hc]

/-- **A scan follows the balance**: it goes through a text that does not fall apart, and ends at its
balance. The induction is from the right, as the counter goes. -/
theorem scan_eq_some_iff (hsep : IsSeparator sep) :
    scan sep 0 none cs = some final ↔ ¬ FallsApart sep cs ∧ balance cs = final := by
  induction cs using List.reverseRecOn generalizing final with
  | nil =>
    rw [scan, and_iff_right not_fallsApart_nil, Option.some_inj]
    rfl
  | append_singleton cs c ih =>
    rw [scan_append, Option.bind_eq_some_iff, fallsApart_concat, not_or, balance_concat]
    simp only [ih, scan_singleton hsep, Option.or_none]
    constructor
    · rintro ⟨_, ⟨hcs, rfl⟩, hc, hfinal⟩
      exact ⟨⟨hcs, hc⟩, hfinal⟩
    · rintro ⟨⟨hcs, hc⟩, hfinal⟩
      exact ⟨balance cs, ⟨hcs, rfl⟩, hc, hfinal⟩

/-! ## 3. Parts -/

/-- A text without blanks at its ends. -/
def IsTrimmed (cs : List Char) : Prop :=
  (∀ c ∈ cs.head?, isBlank c = false) ∧ ∀ c ∈ cs.getLast?, isBlank c = false

/-- **A part of a list of types**: it is there and trimmed, does not fall apart, and closes what it
opens. -/
structure IsPart (sep : Char) (part : List Char) : Prop where
  ne_nil : part ≠ []
  isTrimmed : IsTrimmed part
  whole : ¬ FallsApart sep part
  balance_eq_zero : balance part = 0

theorem isTrimmed_iff : IsTrimmed cs ↔ trim cs = cs :=
  trimWhile_eq_self_iff.symm

/-- What a scan tells of a part. -/
theorem isPart_iff (hsep : IsSeparator sep) :
    IsPart sep part ↔ part ≠ [] ∧ trim part = part ∧ scan sep 0 none part = some 0 := by
  rw [scan_eq_some_iff hsep, ← isTrimmed_iff]
  exact ⟨fun h => ⟨h.ne_nil, h.isTrimmed, h.whole, h.balance_eq_zero⟩,
    fun ⟨hne, htrim, hwhole, hbalance⟩ => ⟨hne, htrim, hwhole, hbalance⟩⟩

theorem dropWhile_dropEndWhile {p : Char → Bool} (h : cs.dropWhile p = cs) :
    (dropEndWhile p cs).dropWhile p = dropEndWhile p cs := by
  rw [dropWhile_eq_self_iff_head?] at h ⊢
  -- what is left of the text, if anything, starts as the text does
  obtain ⟨rest, hrest⟩ := prefix_dropEndWhile p cs
  intro c hc
  refine h c ?_
  rw [← hrest, List.head?_append, Option.mem_def.1 hc]
  rfl

theorem isTrimmed_trim (cs : List Char) : IsTrimmed (trim cs) := by
  rw [isTrimmed_iff, trim, trim, trimWhile, trimWhile]
  have hstart : (cs.dropWhile isBlank).dropWhile isBlank = cs.dropWhile isBlank :=
    List.dropWhile_idempotent _ _
  rw [dropWhile_dropEndWhile hstart, dropEndWhile, dropEndWhile, List.reverse_reverse,
    List.dropWhile_idempotent]

/-- **What a split gives** stands in the text, trimmed and not empty. -/
theorem of_mem_splitTopLevel (h : part ∈ splitTopLevel sep text) :
    part ≠ [] ∧ IsTrimmed part ∧ part <:+: text := by
  have hinfix := infix_of_mem_splitTopLevel h
  obtain ⟨hmem, hne⟩ := List.mem_filter.1 h
  obtain ⟨piece, -, rfl⟩ := List.mem_map.1 hmem
  exact ⟨of_decide_eq_true hne, isTrimmed_trim piece, hinfix⟩

/-! ## 4. Splitting and joining -/

/-- **Splitting and joining**, for one separator. -/
structure SplitsJoined (sep : Char) : Prop where
  /-- The parts of a text that joins them are got back, whatever the blanks around the separators. -/
  parts : ∀ parts text, (∀ part ∈ parts, IsPart sep part) → Joins sep parts text →
    splitTopLevelAt [sep] text = parts
  /-- Of any text, each piece is there, trimmed, and stands in the text as it is. -/
  pieces : ∀ text, ∀ piece ∈ splitTopLevelAt [sep] text,
    piece ≠ [] ∧ IsTrimmed piece ∧ piece <:+: text

/-- **Splitting undoes joining**, and cuts every text into pieces of it. -/
theorem splitsJoined (hsep : IsSeparator sep) : SplitsJoined sep where
  parts _ _ hparts hjoins :=
    splitTopLevel_of_joins hsep (fun part hpart => (isPart_iff hsep).1 (hparts part hpart)) hjoins
  pieces _ _ hpiece := of_mem_splitTopLevel hpiece

/-- The members of a union, one of them an arrow, one a piece whose balance goes below zero, and one with
a bar inside brackets. -/
theorem splitsJoined_union :
    let members := ["(a: A) => B", "]|[", "Map<k | v>"].map String.toList
    let text := "(a: A) => B |]|[|  Map<k | v>".toList
    IsSeparator '|' ∧ (∀ part ∈ members, IsPart '|' part) ∧ Joins '|' members text ∧
      splitTopLevelAt ['|'] text = members := by
  intro members text
  have hsep : IsSeparator '|' := .inr rfl
  have hparts : ∀ part ∈ members, IsPart '|' part := by
    simp only [isPart_iff hsep]
    decide +kernel
  have hspaces (n : Nat) : ∀ c ∈ List.replicate n ' ', isBlank c = true := by
    intro c hc
    rw [List.eq_of_mem_replicate hc]
    rfl
  have hrest : Joins '|' ["]|[".toList, "Map<k | v>".toList] "]|[|  Map<k | v>".toList :=
    .cons (hspaces 0) (hspaces 2) (.one _)
  have hjoins : Joins '|' members text := .cons (hspaces 1) (hspaces 0) hrest
  exact ⟨hsep, hparts, hjoins, (splitsJoined hsep).parts members text hparts hjoins⟩

end CodeAtlas.Text
