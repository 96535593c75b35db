import CodeAtlas.Proofs.Annotation
import CodeAtlas.Proofs.Annotation.Expression
import CodeAtlas.Proofs.Text.Bracket

/-!
# Texts of type expressions

What the reader of annotations needs to know of the text of a type: that it is bare (`bare_of_closes`),
and in parentheses bare up to these (`bare_parens`), and that separators are seen in it only where they
belong to it, so that it stays in one piece wherever it is put (`IsType`, `IsOperand`). Both follow from
how such a text starts and ends, and from its brackets being closed. There is one lemma for each way of
building a type; `TypeExpr.isType_render` puts them together.
-/

namespace CodeAtlas

open Text Annotation
open CodeAtlas.TypeName (isIdentifierChar)

variable {cs rest : List Char} {c sep : Char} {depth : Int}

/-! ## 1. Names -/

/-- The characters of a qualified name are those of identifiers, and the dot. -/
@[elab_as_elim]
theorem Annotation.isGenericName_elim {P : Char → Prop}
    (name : ∀ c, isIdentifierChar c = true → P c) (dot : P '.') (h : isGenericName c = true) : P c := by
  simp only [isGenericName, Bool.or_eq_true, beq_iff_eq] at h
  rcases h with (h | rfl) | rfl
  · exact name c (by rw [isIdentifierChar, h]; rfl)
  · exact dot
  · exact name '$' (by decide)

theorem Segment.isIdentifierChar_of_mem (segment : Segment) :
    ∀ c ∈ segment.chars, isIdentifierChar c = true := by
  obtain ⟨chars, hidentifier⟩ := segment
  cases chars with
  | nil => cases hidentifier
  | cons d chars =>
    obtain ⟨hstart, hrest⟩ := Bool.and_eq_true_iff.1 hidentifier
    intro c hc
    rcases List.mem_cons.1 hc with rfl | hc
    · exact TypeName.isIdentifierChar_of_isIdentifierStart hstart
    · exact List.all_eq_true.1 hrest c hc

theorem Segment.chars_ne_nil (segment : Segment) : segment.chars ≠ [] := by
  intro hnil
  have hidentifier := segment.isIdentifier
  rw [hnil] at hidentifier
  cases hidentifier

/-- A text with another character than those of names is no word of a table. -/
theorem contains_eq_false {names : List String}
    (hnames : ∀ name ∈ names, ∀ c ∈ name.toList, isIdentifierChar c = true) (hmem : c ∈ cs)
    (hc : isIdentifierChar c = false) : names.contains (String.ofList cs) = false := by
  rw [← Bool.not_eq_true, List.contains_iff_mem]
  intro hname
  have hchar := hnames _ hname c (by rwa [String.toList_ofList])
  rw [hc] at hchar
  cases hchar

namespace QualifiedName

variable (q : QualifiedName)

theorem isGenericName_of_mem_render : ∀ c ∈ q.render, isGenericName c = true := by
  intro c hc
  rcases List.mem_append.1 hc with hfront | hlast
  · obtain ⟨segment, -, hsegment⟩ := List.mem_flatMap.1 hfront
    rcases List.mem_append.1 hsegment with hname | hdot
    · exact isGenericName_of_isIdentifierChar (segment.isIdentifierChar_of_mem c hname)
    · rw [List.mem_singleton.1 hdot]
      decide
  · exact isGenericName_of_isIdentifierChar (q.last.isIdentifierChar_of_mem c hlast)

theorem render_ne_nil : q.render ≠ [] :=
  List.append_ne_nil_of_right_ne_nil _ q.last.chars_ne_nil

theorem render_of_qualifier_eq_nil (h : q.qualifier = []) : q.render = q.last.chars := by
  rw [render, front, h]
  rfl

theorem dot_mem_render (h : q.qualifier ≠ []) : '.' ∈ q.render := by
  obtain ⟨segment, others, hqualifier⟩ := List.exists_cons_of_ne_nil h
  refine List.mem_append_left _ (List.mem_flatMap.2 ⟨segment, ?_, ?_⟩)
  · rw [hqualifier]
    exact List.mem_cons_self
  · exact List.mem_append_right _ (List.mem_singleton_self _)

/-- **Behind the last dot** stands the name without its qualifier. -/
theorem afterLast_render : afterLast '.' q.render = q.last.chars := by
  have hdot : '.' ∉ q.last.chars := fun hmem =>
    absurd (q.last.isIdentifierChar_of_mem '.' hmem) (by decide)
  rcases List.eq_nil_or_concat q.qualifier with hnone | ⟨others, segment, hsome⟩
  · rw [q.render_of_qualifier_eq_nil hnone, afterLast_of_notMem hdot]
  · rw [render, front, hsome, List.concat_eq_append, List.flatMap_append, List.flatMap_singleton,
      ← List.append_assoc, List.append_assoc, List.singleton_append, afterLast_append_sep hdot]

/-- **A name is a word of a table** exactly if it has no qualifier and stands there. -/
theorem contains_render {names : List String}
    (hnames : ∀ name ∈ names, ∀ c ∈ name.toList, isIdentifierChar c = true) :
    names.contains (String.ofList q.render) = q.isOneOf names := by
  by_cases hqualifier : q.qualifier = []
  · rw [q.render_of_qualifier_eq_nil hqualifier, isOneOf, hqualifier]
    rfl
  · have hdotted := contains_eq_false hnames (q.dot_mem_render hqualifier) (by decide)
    rw [hdotted, isOneOf, List.isEmpty_eq_false_iff.2 hqualifier, Bool.false_and]

theorem render_ne_readonly : q.render ≠ "readonly".toList := by
  intro h
  refine q.notReadonly ?_
  by_cases hqualifier : q.qualifier = []
  · exact ⟨hqualifier, (q.render_of_qualifier_eq_nil hqualifier).symm.trans h⟩
  · have hdot := q.dot_mem_render hqualifier
    rw [h] at hdot
    exact absurd hdot (by decide)

end QualifiedName

namespace Brackets

variable (brackets : Brackets)

theorem isOpening_opening : isOpening brackets.opening = true := by
  cases brackets <;> rfl

theorem isClosing_closing : isClosing brackets.closing = true := by
  cases brackets <;> rfl

theorem isGenericName_opening : isGenericName brackets.opening = false := by
  cases brackets <;> decide

theorem isIdentifierChar_opening : isIdentifierChar brackets.opening = false := by
  cases brackets <;> decide

end Brackets

/-! ## 2. How texts of types start and end -/

/-- **A text opens like a type**: with a parenthesis, or with a name that ends there. -/
inductive Opens : List Char → Prop
  | paren (rest : List Char) : Opens ('(' :: rest)
  | name (q : QualifiedName) {rest : List Char} (h : ∀ c ∈ rest.head?, isGenericName c = false) :
      Opens (q.render ++ rest)

/-- **A text closes like a type**: with a name or a bracket, but no parenthesis. -/
def Closes (cs : List Char) : Prop :=
  ∃ front c, cs = front ++ [c] ∧ (isIdentifierChar c = true ∨ c = ']' ∨ c = '>')

theorem Opens.append (h : Opens cs) (hrest : ∀ c ∈ rest.head?, isGenericName c = false) :
    Opens (cs ++ rest) := by
  cases h with
  | paren rest => exact .paren _
  | @name q tail htail =>
    rw [List.append_assoc]
    refine .name q ?_
    cases tail with
    | nil => exact hrest
    | cons d tail => exact htail

theorem Closes.append_left (h : Closes rest) (cs : List Char) : Closes (cs ++ rest) := by
  obtain ⟨front, c, rfl, hc⟩ := h
  exact ⟨cs ++ front, c, (List.append_assoc _ _ _).symm, hc⟩

theorem Opens.ne_nil (h : Opens cs) : cs ≠ [] := by
  cases h with
  | paren rest => exact List.cons_ne_nil _ _
  | name q h => exact List.append_ne_nil_of_left_ne_nil q.render_ne_nil _

/-- No blank and no quotation mark stands in front. -/
theorem Opens.head? (h : Opens cs) {p : Char → Bool} (hname : ∀ c, isGenericName c = true → p c = false)
    (hparen : p '(' = false) : ∀ c ∈ cs.head?, p c = false := by
  cases h with
  | paren rest =>
    rintro _ ⟨⟩
    exact hparen
  | name q h =>
    obtain ⟨d, front, hq⟩ := List.exists_cons_of_ne_nil q.render_ne_nil
    rw [hq]
    rintro _ ⟨⟩
    exact hname d (q.isGenericName_of_mem_render d (hq ▸ List.mem_cons_self))

theorem Closes.getLast? (h : Closes cs) {p : Char → Bool}
    (hname : ∀ c, isIdentifierChar c = true → p c = false) (hsquare : p ']' = false)
    (hangle : p '>' = false) : ∀ c ∈ cs.getLast?, p c = false := by
  obtain ⟨front, d, rfl, hd⟩ := h
  rw [List.getLast?_concat]
  rintro _ ⟨⟩
  rcases hd with hd | rfl | rfl
  · exact hname d hd
  · exact hsquare
  · exact hangle

/-- The text does not open with the word `readonly`: the name in front is another. -/
theorem Opens.dropReadonly (h : Opens cs) : dropReadonly cs = cs := by
  have hno : dropStart? ['r', 'e', 'a', 'd', 'o', 'n', 'l', 'y', ' '] cs = none := by
    rw [← Option.not_isSome_iff_eq_none]
    intro hsome
    obtain ⟨tail, htail⟩ := Option.isSome_iff_exists.1 hsome
    have heq := eq_append_of_dropStart? htail
    cases h with
    | paren rest => cases heq
    | @name q rest hrest =>
      -- the name goes on as far as the characters of names do
      have hname : (q.render ++ rest).takeWhile isGenericName = q.render := by
        rw [List.takeWhile_append_of_pos q.isGenericName_of_mem_render]
        cases rest with
        | nil => rw [List.takeWhile_nil, List.append_nil]
        | cons d rest =>
          rw [List.takeWhile_cons_of_neg (Bool.eq_false_iff.1 (hrest d rfl)), List.append_nil]
      rw [heq] at hname
      exact q.render_ne_readonly hname.symm
  unfold Annotation.dropReadonly
  rw [hno]

theorem hasArrow_eq_false (h : '=' ∉ cs) : hasArrow cs = false := by
  fun_induction hasArrow cs with
  | case1 rest => exact absurd List.mem_cons_self h
  | case2 c rest hno ih => exact ih fun hmem => h (List.mem_cons_of_mem c hmem)
  | case3 => rfl

theorem isBlank_of_isGenericName (h : isGenericName c = true) : isBlank c = false :=
  isGenericName_elim (fun _ => isBlank_of_isIdentifierChar) (by decide) h

theorem isQuote_of_isGenericName (h : isGenericName c = true) : isQuote c = false :=
  isGenericName_elim (fun _ => isQuote_of_isIdentifierChar) (by decide) h

theorem trim_of_closes (hopens : Opens cs) (hcloses : Closes cs) : trim cs = cs :=
  trimWhile_eq_self_iff.2 ⟨hopens.head? (fun _ => isBlank_of_isGenericName) (by decide),
    hcloses.getLast? (fun _ => isBlank_of_isIdentifierChar) (by decide) (by decide)⟩

theorem trimQuotes_of_closes (hopens : Opens cs) (hcloses : Closes cs) : trimWhile isQuote cs = cs :=
  trimWhile_eq_self_iff.2 ⟨hopens.head? (fun _ => isQuote_of_isGenericName) (by decide),
    hcloses.getLast? (fun _ => isQuote_of_isIdentifierChar) (by decide) (by decide)⟩

/-- **The text of a type is bare.** -/
theorem bare_of_closes (hopens : Opens cs) (hcloses : Closes cs) : bare cs = cs := by
  have hlast : ¬ (cs.getLast? == some ')') = true := by
    obtain ⟨front, c, rfl, hc⟩ := hcloses
    rw [List.getLast?_concat, beq_iff_eq, Option.some_inj]
    rintro rfl
    exact absurd hc (by decide)
  rw [bare, unquote, trim_of_closes hopens hcloses, trimQuotes_of_closes hopens hcloses,
    trim_of_closes hopens hcloses, hopens.dropReadonly, dropParens, if_neg]
  simp [hlast]

/-- **The text of a type in parentheses** is that text when it is bare. -/
theorem bare_parens (hopens : Opens cs) (hcloses : Closes cs) (hshaft : '=' ∉ cs) :
    bare ('(' :: (cs ++ [')'])) = cs := by
  have htrimmed : ∀ p : Char → Bool, p '(' = false → p ')' = false →
      trimWhile p ('(' :: (cs ++ [')'])) = '(' :: (cs ++ [')']) := by
    intro p hopening hclosing
    refine trimWhile_eq_self_iff.2 ⟨?_, ?_⟩
    · rintro _ ⟨⟩
      exact hopening
    · rw [← List.cons_append, List.getLast?_concat]
      rintro _ ⟨⟩
      exact hclosing
  have hblank : trim ('(' :: (cs ++ [')'])) = '(' :: (cs ++ [')']) :=
    htrimmed isBlank (by decide) (by decide)
  have hparens : (('(' :: (cs ++ [')'])).head? == some '(' &&
      ('(' :: (cs ++ [')'])).getLast? == some ')' && !hasArrow ('(' :: (cs ++ [')']))) = true := by
    rw [hasArrow_eq_false (by simp [hshaft]), ← List.cons_append, List.getLast?_concat]
    rfl
  rw [bare, unquote, hblank, htrimmed isQuote (by decide) (by decide), hblank,
    (Opens.paren _).dropReadonly, dropParens, if_pos hparens, List.tail_cons, List.dropLast_concat,
    trim_of_closes hopens hcloses]

/-! ## 3. Texts of types -/

/-- **The text of a type**: how it starts and ends, and that it passes wherever a type may stand. -/
structure IsType (cs : List Char) : Prop where
  opens : Opens cs
  closes : Closes cs
  outside : Passes ',' 0 cs
  inside : ∀ {sep : Char} {depth : Int}, IsSeparator sep → 0 < depth → Passes sep depth cs

/-- **The text of a type that is no union**, which passes a bar outside brackets, too. -/
structure IsOperand (cs : List Char) : Prop where
  opens : Opens cs
  closes : Closes cs
  passes : ∀ {sep : Char} {depth : Int}, IsSeparator sep → 0 ≤ depth → Passes sep depth cs

theorem IsOperand.isType (h : IsOperand cs) : IsType cs where
  opens := h.opens
  closes := h.closes
  outside := h.passes (.inl rfl) (Int.le_refl 0)
  inside hsep hdepth := h.passes hsep (Int.le_of_lt hdepth)

section Joining

variable {glue piece : List Char} {pieces : List (List Char)}

theorem opens_joinWith (hglue : ∀ c ∈ glue.head?, isGenericName c = false) (hne : glue ≠ [])
    (h : Opens piece) : Opens (joinWith glue (piece :: pieces)) := by
  cases pieces with
  | nil => rwa [joinWith_singleton]
  | cons next pieces =>
    rw [joinWith_glue_cons_cons]
    refine h.append ?_
    rwa [List.head?_append_of_ne_nil _ hne]

theorem closes_joinWith (glue : List Char) (hne : pieces ≠ []) (h : ∀ piece ∈ pieces, Closes piece) :
    Closes (joinWith glue pieces) := by
  induction pieces with
  | nil => exact absurd rfl hne
  | cons first pieces ih =>
    obtain ⟨hfirst, hothers⟩ := List.forall_mem_cons.1 h
    cases pieces with
    | nil => rwa [joinWith_singleton]
    | cons next pieces =>
      rw [joinWith_glue_cons_cons]
      exact ((ih (List.cons_ne_nil _ _) hothers).append_left glue).append_left first

end Joining

/-- A name has neither brackets nor separators. -/
theorem passes_render (q : QualifiedName) (hsep : IsSeparator sep) : Passes sep depth q.render := by
  have hchars : ∀ c, isIdentifierChar c = true →
      (isOpening c || isClosing c) = false ∧ c ≠ sep ∧ c ≠ '=' := by
    intro c hc
    obtain ⟨hopening, hclosing⟩ := not_isBracket_of_isIdentifierChar hc
    refine ⟨by rw [hopening, hclosing]; rfl, ne_of_isIdentifierChar ?_ hc,
      ne_of_isIdentifierChar (by decide) hc⟩
    rcases hsep with rfl | rfl <;> decide
  have hall : ∀ c ∈ q.render, (isOpening c || isClosing c) = false ∧ c ≠ sep ∧ c ≠ '=' := by
    intro c hc
    refine isGenericName_elim hchars ?_ (q.isGenericName_of_mem_render c hc)
    rcases hsep with rfl | rfl <;> decide
  refine .of_forall (fun c hc => ⟨(hall c hc).1, .inl (hall c hc).2.1⟩) fun hshaft => ?_
  exact (hall '=' hshaft).2.2 rfl

theorem passes_brackets (hsep : IsSeparator sep) : Passes sep depth ['[', ']'] :=
  .bracket hsep rfl rfl .nil

/-- Between arguments stand a comma and a blank, which pass inside brackets. -/
theorem passes_comma (hdepth : 0 < depth) : Passes sep depth [',', ' '] := by
  refine .of_forall (fun c hc => ⟨?_, .inr (by omega)⟩) (by decide)
  revert c
  decide

theorem passes_bar (h : sep = ',' ∨ 0 < depth) : Passes sep depth [' ', '|', ' '] := by
  refine .of_forall (fun c hc => ⟨?_, ?_⟩) (by decide)
  · revert c
    decide
  · rcases h with rfl | hdepth
    · left
      revert c
      decide
    · exact .inr (by omega)

theorem isOperand_name (q : QualifiedName) : IsOperand q.render where
  opens := by
    have h : Opens (q.render ++ []) := .name q nofun
    rwa [List.append_nil] at h
  closes := by
    obtain ⟨front, c, hlast⟩ :=
      (List.eq_nil_or_concat' q.last.chars).resolve_left q.last.chars_ne_nil
    have hc : c ∈ q.last.chars := by
      rw [hlast]
      exact List.mem_append_right _ (List.mem_singleton_self c)
    exact Closes.append_left ⟨front, c, hlast, .inl (q.last.isIdentifierChar_of_mem c hc)⟩ q.front
  passes hsep _ := passes_render q hsep

theorem isOperand_generic (q : QualifiedName) (brackets : Brackets) {pieces : List (List Char)}
    (h : ∀ piece ∈ pieces, IsType piece) :
    IsOperand (q.render ++ brackets.opening :: (joinWith [',', ' '] pieces ++ [brackets.closing])) where
  opens := by
    refine .name q ?_
    rintro _ ⟨⟩
    exact brackets.isGenericName_opening
  closes := by
    refine Closes.append_left ⟨brackets.opening :: joinWith [',', ' '] pieces, brackets.closing, rfl, ?_⟩
      q.render
    cases brackets with
    | angle => exact .inr (.inr rfl)
    | square => exact .inr (.inl rfl)
  passes {sep depth} hsep hdepth := by
    -- the arguments stand one level deeper, where even the comma between them passes
    have hdeeper : 0 < depth + 1 := by omega
    have harguments : Passes sep (depth + 1) (joinWith [',', ' '] pieces) :=
      .joinWith (passes_comma hdeeper) fun piece hpiece => (h piece hpiece).inside hsep hdeeper
    exact (passes_render q hsep).append
      (.bracket hsep brackets.isOpening_opening brackets.isClosing_closing harguments)

theorem isOperand_array (h : IsOperand cs) : IsOperand (cs ++ ['[', ']']) where
  opens := by
    refine h.opens.append ?_
    rintro _ ⟨⟩
    decide
  closes := ⟨cs ++ ['['], ']', by simp, .inr (.inl rfl)⟩
  passes hsep hdepth := (h.passes hsep hdepth).append (passes_brackets hsep)

theorem isOperand_arrayOfUnion (h : IsType cs) : IsOperand ('(' :: (cs ++ [')']) ++ ['[', ']']) where
  opens := .paren _
  closes := ⟨'(' :: (cs ++ [')']) ++ ['['], ']', by simp, .inr (.inl rfl)⟩
  passes {sep depth} hsep hdepth := by
    have hunion : Passes sep (depth + 1) cs := h.inside hsep (by omega)
    exact (Passes.bracket hsep rfl rfl hunion).append (passes_brackets hsep)

theorem isType_union {pieces : List (List Char)} (hne : pieces ≠ [])
    (h : ∀ piece ∈ pieces, IsOperand piece) : IsType (joinWith [' ', '|', ' '] pieces) where
  opens := by
    obtain ⟨first, others, rfl⟩ := List.exists_cons_of_ne_nil hne
    refine opens_joinWith ?_ (List.cons_ne_nil _ _) (h first List.mem_cons_self).opens
    rintro _ ⟨⟩
    decide
  closes := closes_joinWith _ hne fun piece hpiece => (h piece hpiece).closes
  outside := Passes.joinWith (passes_bar (.inl rfl)) fun piece hpiece =>
    (h piece hpiece).passes (.inl rfl) (Int.le_refl 0)
  inside hsep hdepth := Passes.joinWith (passes_bar (.inr hdepth)) fun piece hpiece =>
    (h piece hpiece).passes hsep (Int.le_of_lt hdepth)

mutual

/-- **Every type that is no union has the text of one.** -/
theorem Operand.isOperand_render : ∀ o : Operand, IsOperand o.render
  | .name q => isOperand_name q
  | .generic q brackets arguments => isOperand_generic q brackets arguments.isType_renders
  | .array (.operand o) => isOperand_array o.isOperand_render
  | .array (.union first others) =>
    isOperand_arrayOfUnion (TypeExpr.isType_render (.union first others))

/-- **Every type has the text of one.** -/
theorem TypeExpr.isType_render : ∀ t : TypeExpr, IsType t.render
  | .operand o => o.isOperand_render.isType
  | .union first others => isType_union (List.cons_ne_nil _ _)
      (List.forall_mem_cons.2 ⟨first.isOperand_render, others.isOperand_renders⟩)

theorem TypeArguments.isType_renders : ∀ a : TypeArguments, ∀ piece ∈ a.renders, IsType piece
  | .last t => List.forall_mem_singleton.2 t.isType_render
  | .cons t others => List.forall_mem_cons.2 ⟨t.isType_render, others.isType_renders⟩

theorem Operands.isOperand_renders : ∀ m : Operands, ∀ piece ∈ m.renders, IsOperand piece
  | .last o => List.forall_mem_singleton.2 o.isOperand_render
  | .cons o others => List.forall_mem_cons.2 ⟨o.isOperand_render, others.isOperand_renders⟩

end

end CodeAtlas
