import CodeAtlas.Proofs.Text.Contiguous

/-!
# Scanning texts with brackets

The pieces of a text are cut where a counter of open brackets stands at zero. `scan` follows the
counter alone: it gives where the counter ends, and nothing if the text has a separator outside
brackets. A text that is scanned through stays in one piece, and the text behind it is cut as if it
stood alone (`topLevelPieces_append`). So splitting undoes joining (`splitTopLevel_of_joins`), whatever
the blanks around the separators are.

`Passes` is for texts that are put together from smaller ones: the counter is the same before and
after.
-/

namespace CodeAtlas.Text

variable {p : Char → Bool} {sep : Char} {depth final : Int} {previous : Option Char}
  {cs rest part : List Char}

/-! ## 1. Scanning -/

/-- **The counter of open brackets after a text**, nothing if a separator stands outside brackets. -/
def scan (sep : Char) (depth : Int) (previous : Option Char) : List Char → Option Int
  | [] => some depth
  | c :: rest =>
    let depth' := depthAfter depth previous c
    if c == sep && depth' == 0 then none else scan sep depth' (some c) rest

/-- Of the character in front only matters whether it is the shaft of an arrow. -/
theorem topLevelPieces_congr {a b : Option Char} (h : (a == some '=') = (b == some '='))
    (s : List Char) : topLevelPieces sep depth a s = topLevelPieces sep depth b s := by
  cases s with
  | nil => rfl
  | cons c s => rw [topLevelPieces, topLevelPieces, depthAfter, h, depthAfter]

theorem scan_congr {a b : Option Char} (h : (a == some '=') = (b == some '=')) (s : List Char) :
    scan sep depth a s = scan sep depth b s := by
  cases s with
  | nil => rfl
  | cons c s => rw [scan, scan, depthAfter, h, depthAfter]

theorem getLast?_cons_or (c : Char) (cs : List Char) :
    (c :: cs).getLast?.or previous = cs.getLast?.or (some c) := by
  rw [List.getLast?_cons]
  cases cs.getLast? <;> rfl

theorem scan_append (cs rest : List Char) : scan sep depth previous (cs ++ rest) =
    (scan sep depth previous cs).bind fun final => scan sep final (cs.getLast?.or previous) rest := by
  induction cs generalizing depth previous with
  | nil => rfl
  | cons c cs ih =>
    rw [List.cons_append, scan, scan]
    split
    · rfl
    · rw [ih, getLast?_cons_or]

/-- **A text that is scanned through stays in one piece**, in front of what stands behind it. -/
theorem topLevelPieces_append (h : scan sep depth previous cs = some final) (rest : List Char) :
    topLevelPieces sep depth previous (cs ++ rest) =
      (topLevelPieces sep final (cs.getLast?.or previous) rest).modifyHead (cs ++ ·) := by
  induction cs generalizing depth previous with
  | nil =>
    cases h
    exact (congrFun List.modifyHead_id _).symm
  | cons c cs ih =>
    rw [scan] at h
    rw [List.cons_append, topLevelPieces]
    split at h
    · cases h
    · rename_i hsep
      rw [if_neg hsep, ih h, getLast?_cons_or]
      obtain ⟨piece, pieces, hpieces⟩ := List.exists_cons_of_ne_nil
        (topLevelPieces_ne_nil sep final (cs.getLast?.or (some c)) rest)
      rw [hpieces]
      rfl

/-! ## 2. Blanks at the ends -/

theorem dropWhile_eq_self_iff_head? :
    cs.dropWhile p = cs ↔ ∀ c ∈ cs.head?, p c = false := by
  rw [List.dropWhile_eq_self_iff]
  cases cs <;> simp

theorem dropEndWhile_eq_self_iff :
    dropEndWhile p cs = cs ↔ ∀ c ∈ cs.getLast?, p c = false := by
  rw [dropEndWhile, ← List.head?_reverse, ← dropWhile_eq_self_iff_head?, List.reverse_eq_iff]

/-- A text is trimmed already if neither end has a character to take off. -/
theorem trimWhile_eq_self_iff :
    trimWhile p cs = cs ↔ (∀ c ∈ cs.head?, p c = false) ∧ ∀ c ∈ cs.getLast?, p c = false := by
  rw [← dropWhile_eq_self_iff_head?, ← dropEndWhile_eq_self_iff, trimWhile]
  constructor
  · intro h
    -- nothing is taken off at the start, or the text would be shorter
    have hsuffix := List.dropWhile_suffix (l := cs) p
    have hlength := length_dropEndWhile_le p (cs.dropWhile p)
    rw [h] at hlength
    have hwhole := hsuffix.eq_of_length_le hlength
    rw [hwhole] at h
    exact ⟨hwhole, h⟩
  · rintro ⟨hwhole, h⟩
    rw [hwhole, h]

theorem trim_append_left (hblank : ∀ c ∈ cs, isBlank c = true) (rest : List Char) :
    trim (cs ++ rest) = trim rest := by
  rw [trim, trimWhile, List.dropWhile_append_of_pos hblank]
  rfl

theorem trim_append_right (hcs : cs ≠ []) (htrim : trim cs = cs)
    (hblank : ∀ c ∈ rest, isBlank c = true) : trim (cs ++ rest) = cs := by
  obtain ⟨hstart, hend⟩ := trimWhile_eq_self_iff.1 htrim
  have hdrop : (cs ++ rest).dropWhile isBlank = cs ++ rest := by
    obtain ⟨c, cs, rfl⟩ := List.exists_cons_of_ne_nil hcs
    exact dropWhile_eq_self_iff_head?.2 hstart
  have hreverse : ∀ c ∈ rest.reverse, isBlank c = true := fun c hc =>
    hblank c (List.mem_reverse.1 hc)
  rw [trim, trimWhile, hdrop, dropEndWhile, List.reverse_append,
    List.dropWhile_append_of_pos hreverse]
  exact dropEndWhile_eq_self_iff.2 hend

/-! ## 3. Splitting a joined text -/

/-- **A separator** of types: the comma between arguments, or the bar between members of a union. -/
def IsSeparator (sep : Char) : Prop :=
  sep = ',' ∨ sep = '|'

/-- **A text joins some parts** if it has them in turn, with one separator between neighbours, and blanks
around it. -/
inductive Joins (sep : Char) : List (List Char) → List Char → Prop
  | one (part : List Char) : Joins sep [part] part
  | cons {part next before after rest : List Char} {parts : List (List Char)}
      (hbefore : ∀ c ∈ before, isBlank c = true) (hafter : ∀ c ∈ after, isBlank c = true)
      (hrest : Joins sep (next :: parts) rest) :
      Joins sep (part :: next :: parts) (part ++ before ++ sep :: (after ++ rest))

/-- One glue between all of them is a separator with blanks around it. -/
theorem joins_joinWith (before after : List Char) (hbefore : ∀ c ∈ before, isBlank c = true)
    (hafter : ∀ c ∈ after, isBlank c = true) {pieces : List (List Char)} (hne : pieces ≠ []) :
    Joins sep pieces (joinWith (before ++ sep :: after) pieces) := by
  induction pieces with
  | nil => exact absurd rfl hne
  | cons first pieces ih =>
    cases pieces with
    | nil =>
      rw [joinWith_singleton]
      exact .one first
    | cons next pieces =>
      have hrest := ih (List.cons_ne_nil next pieces)
      rw [joinWith_glue_cons_cons, List.append_assoc, List.cons_append, ← List.append_assoc]
      exact .cons hbefore hafter hrest

theorem depthAfter_of_isSeparator (h : IsSeparator sep) : depthAfter depth previous sep = depth := by
  rcases h with rfl | rfl <;> rfl

theorem isBlank_of_isSeparator (h : IsSeparator sep) : isBlank sep = false := by
  rcases h with rfl | rfl <;> decide

theorem isBlank_of_isBracket {c : Char} (h : (isOpening c || isClosing c) = true) :
    isBlank c = false := by
  simp only [isOpening, isClosing, Bool.or_eq_true, beq_iff_eq] at h
  rcases h with (((rfl | rfl) | rfl) | rfl) | (((rfl | rfl) | rfl) | rfl) <;> decide

theorem depthAfter_of_not_isBracket {c : Char} (h : (isOpening c || isClosing c) = false) :
    depthAfter depth previous c = depth := by
  obtain ⟨hopening, hclosing⟩ := Bool.or_eq_false_iff.1 h
  rw [depthAfter, hopening, hclosing]
  rfl

theorem isClosing_of_isOpening {c : Char} (h : isOpening c = true) : isClosing c = false := by
  simp only [isOpening, Bool.or_eq_true, beq_iff_eq] at h
  rcases h with ((rfl | rfl) | rfl) | rfl <;> rfl

/-- A closing bracket that no arrow ends in. -/
theorem depthAfter_of_isClosing {c : Char} (h : isClosing c = true) (hprevious : previous ≠ some '=') :
    depthAfter depth previous c = depth - 1 := by
  have hopening : isOpening c = false := by
    cases ho : isOpening c with
    | false => rfl
    | true =>
      rw [isClosing_of_isOpening ho] at h
      cases h
  rw [depthAfter, hopening, h, beq_eq_false_iff_ne.2 hprevious, Bool.and_false]
  rfl

/-- Characters that are neither brackets nor separators do not move the counter. -/
theorem scan_of_forall (h : ∀ c ∈ cs, (isOpening c || isClosing c) = false ∧ (c ≠ sep ∨ depth ≠ 0)) :
    scan sep depth previous cs = some depth := by
  induction cs generalizing previous with
  | nil => rfl
  | cons c cs ih =>
    obtain ⟨⟨hbracket, hseparates⟩, hrest⟩ := List.forall_mem_cons.1 h
    rw [scan, depthAfter_of_not_isBracket hbracket, if_neg, ih hrest]
    simpa [imp_iff_not_or] using hseparates

theorem scan_of_isBlank (hsep : IsSeparator sep) (h : ∀ c ∈ cs, isBlank c = true) :
    scan sep depth previous cs = some depth := by
  refine scan_of_forall fun c hc => ⟨?_, .inl ?_⟩
  · rw [← Bool.not_eq_true]
    exact fun hbracket => ne_true_of_eq_false (isBlank_of_isBracket hbracket) (h c hc)
  · rintro rfl
    exact ne_true_of_eq_false (isBlank_of_isSeparator hsep) (h c hc)

theorem splitTopLevel_of_scan (h : scan sep 0 none cs = some final) :
    splitTopLevel sep cs = [trim cs].filter (· ≠ []) := by
  have hpieces := topLevelPieces_append h []
  rw [List.append_nil] at hpieces
  rw [splitTopLevel, hpieces, topLevelPieces, List.modifyHead_cons, List.append_nil]
  rfl

/-- A text that is scanned through is split off at the separator behind it. -/
theorem splitTopLevel_append_sep (hsep : IsSeparator sep) (h : scan sep 0 none cs = some 0)
    (rest : List Char) :
    splitTopLevel sep (cs ++ sep :: rest) = splitTopLevel sep cs ++ splitTopLevel sep rest := by
  have hshaft : (some sep == some '=') = (none == some '=') := by
    rcases hsep with rfl | rfl <;> decide
  have hcut : (sep == sep && depthAfter 0 (cs.getLast?.or none) sep == 0) = true := by
    rw [depthAfter_of_isSeparator hsep, beq_self_eq_true]
    rfl
  have hrest : topLevelPieces sep 0 none (cs ++ sep :: rest)
      = cs :: topLevelPieces sep 0 none rest := by
    rw [topLevelPieces_append h, topLevelPieces, if_pos hcut, depthAfter_of_isSeparator hsep,
      topLevelPieces_congr hshaft, List.modifyHead_cons, List.append_nil]
  rw [splitTopLevel_of_scan h, splitTopLevel, hrest, List.map_cons, splitTopLevel, ← List.filter_append]
  rfl

/-- Blanks in front are dropped. -/
theorem splitTopLevel_append_left (hsep : IsSeparator sep) (hblank : ∀ c ∈ cs, isBlank c = true)
    (rest : List Char) : splitTopLevel sep (cs ++ rest) = splitTopLevel sep rest := by
  have hshaft : (cs.getLast?.or none == some '=') = (none == some '=') := by
    cases hlast : cs.getLast? with
    | none => rfl
    | some c =>
      have hc : isBlank c = true := hblank c (List.mem_of_getLast? hlast)
      have hne : c ≠ '=' := by
        rintro rfl
        exact absurd hc (by decide)
      simpa using hne
  obtain ⟨piece, pieces, hpieces⟩ := List.exists_cons_of_ne_nil (topLevelPieces_ne_nil sep 0 none rest)
  rw [splitTopLevel, topLevelPieces_append (scan_of_isBlank hsep hblank), topLevelPieces_congr hshaft,
    splitTopLevel, hpieces, List.modifyHead_cons, List.map_cons, trim_append_left hblank, List.map_cons]

/-- **Splitting undoes joining**, if the parts are trimmed, not empty, and scanned through with the
brackets closed at the end. -/
theorem splitTopLevel_of_joins (hsep : IsSeparator sep) {parts : List (List Char)}
    (hparts : ∀ part ∈ parts, part ≠ [] ∧ trim part = part ∧ scan sep 0 none part = some 0)
    (h : Joins sep parts cs) : splitTopLevel sep cs = parts := by
  induction h with
  | one part =>
    obtain ⟨hne, htrim, hscan⟩ := hparts part List.mem_cons_self
    rw [splitTopLevel_of_scan hscan, htrim]
    simp [hne]
  | @cons part next before after rest parts hbefore hafter hrest ih =>
    obtain ⟨⟨hne, htrim, hscan⟩, hothers⟩ := List.forall_mem_cons.1 hparts
    have hfirst : scan sep 0 none (part ++ before) = some 0 := by
      rw [scan_append, hscan]
      exact scan_of_isBlank hsep hbefore
    rw [splitTopLevel_append_sep hsep hfirst, splitTopLevel_of_scan hfirst,
      trim_append_right hne htrim hbefore, splitTopLevel_append_left hsep hafter, ih hothers]
    simp [hne]

/-! ## 4. Texts put together -/

/-- **A text passes** at a depth if a scan goes through it and ends at this depth again. Without an `=` it
has no arrows, so it passes behind whatever text has none either. -/
structure Passes (sep : Char) (depth : Int) (cs : List Char) : Prop where
  noShaft : '=' ∉ cs
  scans : scan sep depth none cs = some depth

namespace Passes

theorem nil : Passes sep depth [] :=
  ⟨List.not_mem_nil, rfl⟩

theorem of_forall (h : ∀ c ∈ cs, (isOpening c || isClosing c) = false ∧ (c ≠ sep ∨ depth ≠ 0))
    (hshaft : '=' ∉ cs) : Passes sep depth cs :=
  ⟨hshaft, scan_of_forall h⟩

theorem scan_some (h : Passes sep depth cs) {c : Char} (hc : c ≠ '=') :
    scan sep depth (some c) cs = some depth := by
  rw [← h.scans]
  exact scan_congr (by simpa using hc) cs

theorem append (h : Passes sep depth cs) (hrest : Passes sep depth rest) :
    Passes sep depth (cs ++ rest) := by
  refine ⟨fun hmem => (List.mem_append.1 hmem).elim h.noShaft hrest.noShaft, ?_⟩
  rw [scan_append, h.scans, Option.bind_some]
  cases hlast : cs.getLast? with
  | none => exact hrest.scans
  | some c =>
    refine hrest.scan_some ?_
    rintro rfl
    exact h.noShaft (List.mem_of_getLast? hlast)

theorem joinWith {glue : List Char} {pieces : List (List Char)} (hglue : Passes sep depth glue)
    (h : ∀ piece ∈ pieces, Passes sep depth piece) : Passes sep depth (joinWith glue pieces) := by
  induction pieces with
  | nil => exact nil
  | cons first pieces ih =>
    obtain ⟨hfirst, hothers⟩ := List.forall_mem_cons.1 h
    cases pieces with
    | nil => rwa [joinWith_singleton]
    | cons next pieces =>
      rw [joinWith_glue_cons_cons]
      exact hfirst.append (hglue.append (ih hothers))

/-- **Brackets around a text** that passes one level deeper. -/
theorem bracket {opening closing : Char} (hsep : IsSeparator sep)
    (hopening : isOpening opening = true) (hclosing : isClosing closing = true)
    (h : Passes sep (depth + 1) cs) : Passes sep depth (opening :: (cs ++ [closing])) := by
  have hseparates : ∀ c, (isOpening c || isClosing c) = true → c ≠ sep ∧ c ≠ '=' := by
    intro c hc
    constructor
    · rintro rfl
      rcases hsep with rfl | rfl <;> cases hc
    · rintro rfl
      cases hc
  obtain ⟨hopensep, hopenshaft⟩ := hseparates opening (by rw [hopening]; rfl)
  obtain ⟨hclosesep, hcloseshaft⟩ := hseparates closing (by rw [hclosing, Bool.or_true])
  have hdeeper : depthAfter depth none opening = depth + 1 := if_pos hopening
  -- the bracket is closed behind a character that is no `=`
  have hlast : cs.getLast?.or (some opening) ≠ some '=' := by
    cases hcs : cs.getLast? with
    | none => simpa using hopenshaft
    | some c =>
      rintro ⟨⟩
      exact h.noShaft (List.mem_of_getLast? hcs)
  have hback : depthAfter (depth + 1) (cs.getLast?.or (some opening)) closing = depth := by
    rw [depthAfter_of_isClosing hclosing hlast, Int.add_sub_cancel]
  refine ⟨?_, ?_⟩
  · simp [hopenshaft.symm, h.noShaft, hcloseshaft.symm]
  · rw [scan, hdeeper, beq_eq_false_iff_ne.2 hopensep, Bool.false_and, if_neg Bool.false_ne_true,
      scan_append, h.scan_some hopenshaft, Option.bind_some, scan, hback,
      beq_eq_false_iff_ne.2 hclosesep]
    rfl

end Passes

end CodeAtlas.Text
