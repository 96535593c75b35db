import CodeAtlas.Proofs.Annotation.Rendering

/-!
# Annotations mean what they say

The reader of annotations sees nothing but the text of a type, and finds what the type means
(`TypeExpr.core_text_eq_meaning`). On the outside of a text it sees how the type is built: there is one
lemma for each way (`shape_render`, `shape_generic`, `shape_array`, `shape_union`). What is left to read
then are the texts of the parts, which are types again.
-/

namespace CodeAtlas

open Text Annotation
open CodeAtlas.TypeName (isIdentifierChar)

variable {cs inner piece : List Char} {pieces : List (List Char)} {c : Char}

/-! ## 1. Shapes -/

/-- Tables have words of name characters only. -/
theorem isIdentifierChar_of_mem_untypedNames :
    ∀ name ∈ TypeName.untypedNames, ∀ c ∈ name.toList, isIdentifierChar c = true := by
  decide

theorem isIdentifierChar_of_mem_nullishNames :
    ∀ name ∈ TypeName.nullishNames, ∀ c ∈ name.toList, isIdentifierChar c = true := by
  decide

/-- A text that is no name says something. -/
theorem isTyped_of_mem (hmem : c ∈ cs) (hc : isIdentifierChar c = false) :
    (cs.isEmpty || TypeName.untypedNames.contains (String.ofList cs)) = false := by
  rw [contains_eq_false isIdentifierChar_of_mem_untypedNames hmem hc, Bool.or_false,
    List.isEmpty_eq_false_iff]
  exact List.ne_nil_of_mem hmem

/-- **A type that is no union is one member.** -/
theorem splitTopLevel_of_isOperand (h : IsOperand cs) : splitTopLevel '|' cs = [cs] := by
  have hscan := (h.passes (.inr rfl) (Int.le_refl 0)).scans
  rw [splitTopLevel_of_scan hscan, trim_of_closes h.opens h.closes]
  simp [h.opens.ne_nil]

/-- What such a text is depends on its end. -/
theorem shape_of_isOperand (h : IsOperand cs) (hmem : c ∈ cs) (hc : isIdentifierChar c = false) :
    shape cs = plainShape cs := by
  rw [shape, isTyped_of_mem hmem hc, if_neg Bool.false_ne_true, splitTopLevel_of_isOperand h]

theorem shape_render (q : QualifiedName) : shape q.render =
    if q.isOneOf TypeName.untypedNames then .absent else .named ⟨q.base, false, []⟩ := by
  have hlast : dropFinal? ['[', ']'] q.render = none := by
    refine dropFinal?_eq_none fun rest heq => ?_
    have hbracket := q.isGenericName_of_mem_render ']' (by rw [heq]; simp)
    exact absurd hbracket (by decide)
  have hwhole : q.render.dropWhile isGenericName = [] :=
    List.dropWhile_eq_nil_iff.2 q.isGenericName_of_mem_render
  have hgeneric : generic? q.render = none := by
    rw [generic?, hwhole]
    rfl
  rw [shape, List.isEmpty_eq_false_iff.2 q.render_ne_nil, Bool.false_or,
    q.contains_render isIdentifierChar_of_mem_untypedNames,
    splitTopLevel_of_isOperand (isOperand_name q)]
  dsimp only
  rw [plainShape, hlast, hgeneric, q.afterLast_render]
  rfl

theorem shape_array (h : IsOperand (cs ++ ['[', ']'])) : shape (cs ++ ['[', ']']) = .collection cs := by
  have hmem : '[' ∈ cs ++ ['[', ']'] := by simp
  rw [shape_of_isOperand h hmem (by decide), plainShape, dropFinal?_eq_some_iff.2 rfl]

/-- **The name and the arguments of a generic type** stand in front of its first bracket, and between
this and the last. -/
theorem generic?_render (q : QualifiedName) (brackets : Brackets) (inner : List Char) :
    generic? (q.render ++ brackets.opening :: (inner ++ [brackets.closing]))
      = some (q.last.chars, inner) := by
  have hname := Bool.eq_false_iff.1 brackets.isGenericName_opening
  have hblank : ¬ isBlank brackets.opening = true := by
    cases brackets <;> decide
  rw [generic?_eq, List.dropWhile_append_of_pos q.isGenericName_of_mem_render,
    List.dropWhile_cons_of_neg hname, List.dropWhile_cons_of_neg hblank,
    List.takeWhile_append_of_pos q.isGenericName_of_mem_render, List.takeWhile_cons_of_neg hname,
    List.append_nil]
  dsimp only
  rw [List.head?_cons, List.tail_cons, List.getLast?_concat, List.dropLast_concat, q.afterLast_render,
    List.isEmpty_eq_false_iff.2 q.render_ne_nil]
  cases brackets <;> rfl

theorem shape_generic (q : QualifiedName) (brackets : Brackets) (hne : pieces ≠ [])
    (h : ∀ piece ∈ pieces, IsType piece) :
    shape (q.render ++ brackets.opening :: (joinWith [',', ' '] pieces ++ [brackets.closing]))
      = genericShape q.base pieces := by
  have hopening : brackets.opening ∈
      q.render ++ brackets.opening :: (joinWith [',', ' '] pieces ++ [brackets.closing]) :=
    List.mem_append_right _ List.mem_cons_self
  -- the arguments do not end in an opening bracket, so this is no array
  have hlast : dropFinal? ['[', ']']
      (q.render ++ brackets.opening :: (joinWith [',', ' '] pieces ++ [brackets.closing])) = none := by
    obtain ⟨front, c, hjoined, hc⟩ :=
      closes_joinWith [',', ' '] hne fun piece hpiece => (h piece hpiece).closes
    refine dropFinal?_eq_none fun rest heq => ?_
    rw [hjoined] at heq
    have hend : (q.render ++ brackets.opening :: front) ++ [c] ++ [brackets.closing]
        = rest ++ ['['] ++ [']'] := by simpa using heq
    have hc' : c = '[' := by
      have hinit := (List.append_inj' hend rfl).1
      simpa using (List.append_inj' hinit rfl).2
    rw [hc'] at hc
    exact absurd hc (by decide)
  have hpieces : splitTopLevel ',' (joinWith [',', ' '] pieces) = pieces := by
    refine splitTopLevel_of_joins (.inl rfl) (fun piece hpiece => ?_)
      (joins_joinWith [] [' '] nofun (by decide) hne)
    have htype := h piece hpiece
    exact ⟨htype.opens.ne_nil, trim_of_closes htype.opens htype.closes, htype.outside.scans⟩
  rw [shape_of_isOperand (isOperand_generic q brackets h) hopening brackets.isIdentifierChar_opening,
    plainShape, hlast, generic?_render]
  dsimp only
  rw [hpieces]
  rfl

theorem bar_mem_joinWith (first second : List Char) (pieces : List (List Char)) :
    '|' ∈ joinWith [' ', '|', ' '] (first :: second :: pieces) := by
  rw [joinWith_glue_cons_cons]
  simp

theorem shape_union {first second : List Char} (h : ∀ piece ∈ first :: second :: pieces, IsOperand piece) :
    shape (joinWith [' ', '|', ' '] (first :: second :: pieces))
      = unionShape (first :: second :: pieces) := by
  have hpieces : splitTopLevel '|' (joinWith [' ', '|', ' '] (first :: second :: pieces))
      = first :: second :: pieces := by
    refine splitTopLevel_of_joins (.inr rfl) (fun piece hpiece => ?_)
      (joins_joinWith [' '] [' '] (by decide) (by decide)
        (List.cons_ne_nil _ _))
    have hoperand := h piece hpiece
    exact ⟨hoperand.opens.ne_nil, trim_of_closes hoperand.opens hoperand.closes,
      (hoperand.passes (.inr rfl) (Int.le_refl 0)).scans⟩
  rw [shape, isTyped_of_mem (bar_mem_joinWith first second pieces) (by decide),
    if_neg Bool.false_ne_true, hpieces]

/-! ## 2. Reading on -/

/-- What a shape comes down to. -/
def Annotation.Shape.core? : Shape → Option CoreType
  | .absent => none
  | .named core => some core
  | .wrapped inner => coreChars? inner
  | .collection element => (coreChars? element).map CoreType.asCollection

theorem coreChars?_eq_core? (cs : List Char) : coreChars? cs = (shape (bare cs)).core? := by
  rw [coreChars?_eq]
  cases shape (bare cs) <;> rfl

theorem coreChars?_of_isType (h : IsType cs) : coreChars? cs = (shape cs).core? := by
  rw [coreChars?_eq_core?, bare_of_closes h.opens h.closes]

theorem coreChars?_parens (h : IsType cs) : coreChars? ('(' :: (cs ++ [')'])) = coreChars? cs := by
  rw [coreChars?_eq_core?, bare_parens h.opens h.closes h.outside.noShaft, coreChars?_of_isType h]

theorem core?_unionShape (pieces : List (List Char)) :
    (unionShape pieces).core? = (firstMeaningful? pieces).bind coreChars? := by
  rw [unionShape]
  cases firstMeaningful? pieces <;> rfl

theorem core?_genericShape (base : String) (piece : List Char) (pieces : List (List Char)) :
    (genericShape base (piece :: pieces)).core? =
      if base = "Union" then (firstMeaningful? (piece :: pieces)).bind coreChars?
      else if TypeName.containerNames.contains base && pieces.isEmpty then
        (coreChars? piece).map CoreType.asCollection
      else if TypeName.wrapperNames.contains base then coreChars? piece
      else some ⟨base, false, (piece :: pieces).map String.ofList⟩ := by
  rw [genericShape]
  by_cases hunion : base = "Union"
  · rw [if_pos (beq_iff_eq.2 hunion), if_pos hunion, core?_unionShape]
  · rw [if_neg (mt beq_iff_eq.1 hunion), if_neg hunion]
    split
    · rfl
    · split <;> rfl

/-- Of some members the first one is read on with, unless that is nullish. -/
theorem coreChars?_firstMeaningful?_cons {isNullish : Bool} (h : IsType piece)
    (hnullish : TypeName.nullishNames.contains (String.ofList piece) = isNullish)
    (pieces : List (List Char)) :
    (firstMeaningful? (piece :: pieces)).bind coreChars? =
      if isNullish then (firstMeaningful? pieces).bind coreChars? else coreChars? piece := by
  rw [firstMeaningful?, List.find?_cons, trimQuotes_of_closes h.opens h.closes, hnullish]
  cases isNullish <;> rfl

theorem Operands.renders_eq_cons (m : Operands) : ∃ piece pieces, m.renders = piece :: pieces := by
  cases m with
  | last o => exact ⟨o.render, [], rfl⟩
  | cons o others => exact ⟨o.render, others.renders, rfl⟩

theorem Operand.contains_render (o : Operand) :
    TypeName.nullishNames.contains (String.ofList o.render) = o.isNullish := by
  cases o with
  | name q => exact q.contains_render isIdentifierChar_of_mem_nullishNames
  | generic q brackets arguments =>
    refine contains_eq_false isIdentifierChar_of_mem_nullishNames ?_ brackets.isIdentifierChar_opening
    exact List.mem_append_right _ List.mem_cons_self
  | array element =>
    refine contains_eq_false (c := ']') isIdentifierChar_of_mem_nullishNames ?_ (by decide)
    exact List.mem_append_right _ (by decide)

theorem TypeExpr.contains_render (t : TypeExpr) :
    TypeName.nullishNames.contains (String.ofList t.render) = t.isNullish := by
  cases t with
  | operand o => exact o.contains_render
  | union first others =>
    obtain ⟨second, pieces, hothers⟩ := others.renders_eq_cons
    refine contains_eq_false (c := '|') isIdentifierChar_of_mem_nullishNames ?_ (by decide)
    rw [TypeExpr.render, hothers]
    exact bar_mem_joinWith first.render second pieces

/-! ## 3. Types -/

mutual

theorem Operand.coreChars?_render : ∀ o : Operand, coreChars? o.render = o.meaning
  | .name q => by
    rw [Operand.render, coreChars?_of_isType (isOperand_name q).isType, shape_render, Operand.meaning]
    split <;> rfl
  | .generic q brackets arguments => by
    obtain ⟨piece, pieces, hpieces, hsingle, hfirst⟩ := arguments.coreChars?_first
    have hvalue := arguments.coreChars?_firstValue
    have htypes := arguments.isType_renders
    -- the name decides which of the arguments is read on with, and whether any is
    rw [coreChars?_of_isType (Operand.isOperand_render _).isType, Operand.render, Operand.meaning]
    rw [hpieces] at hvalue htypes ⊢
    rw [shape_generic q brackets (List.cons_ne_nil _ _) htypes, core?_genericShape, hvalue, hfirst,
      hsingle]
  | .array element => by
    -- the parentheses around a union are no part of it
    have helement : coreChars? (element.asElement element.render) = element.meaning := by
      rw [← element.coreChars?_render]
      cases element with
      | operand o => rfl
      | union first others => exact coreChars?_parens (TypeExpr.isType_render _)
    have htext := Operand.isOperand_render (.array element)
    rw [Operand.render] at htext ⊢
    rw [coreChars?_of_isType htext.isType, shape_array htext, Operand.meaning, ← helement]
    rfl

/-- **The reader finds the meaning of a type in its text.** -/
theorem TypeExpr.coreChars?_render : ∀ t : TypeExpr, coreChars? t.render = t.meaning
  | .operand o => o.coreChars?_render
  | .union first others => by
    obtain ⟨second, pieces, hothers⟩ := others.renders_eq_cons
    have hoperands : ∀ piece ∈ first.render :: others.renders, IsOperand piece :=
      List.forall_mem_cons.2 ⟨first.isOperand_render, others.isOperand_renders⟩
    have hvalue := others.coreChars?_firstValue
    rw [coreChars?_of_isType (TypeExpr.isType_render _), TypeExpr.render, TypeExpr.meaning,
      ← first.coreChars?_render, ← hvalue]
    rw [hothers] at hoperands ⊢
    rw [shape_union hoperands, core?_unionShape,
      coreChars?_firstMeaningful?_cons first.isOperand_render.isType first.contains_render]

theorem TypeArguments.coreChars?_first : ∀ a : TypeArguments,
    ∃ piece pieces, a.renders = piece :: pieces ∧ pieces.isEmpty = a.isSingle ∧
      coreChars? piece = a.first
  | .last t => ⟨t.render, [], rfl, rfl, t.coreChars?_render⟩
  | .cons t others => ⟨t.render, others.renders, rfl, by cases others <;> rfl, t.coreChars?_render⟩

theorem TypeArguments.coreChars?_firstValue : ∀ a : TypeArguments,
    (firstMeaningful? a.renders).bind coreChars? = a.firstValue
  | .last t => by
    rw [TypeArguments.renders, TypeArguments.firstValue, ← t.coreChars?_render]
    exact coreChars?_firstMeaningful?_cons t.isType_render t.contains_render []
  | .cons t others => by
    rw [TypeArguments.renders, TypeArguments.firstValue, ← t.coreChars?_render,
      ← others.coreChars?_firstValue]
    exact coreChars?_firstMeaningful?_cons t.isType_render t.contains_render others.renders

theorem Operands.coreChars?_firstValue : ∀ m : Operands,
    (firstMeaningful? m.renders).bind coreChars? = m.firstValue
  | .last o => by
    rw [Operands.renders, Operands.firstValue, ← o.coreChars?_render]
    exact coreChars?_firstMeaningful?_cons o.isOperand_render.isType o.contains_render []
  | .cons o others => by
    rw [Operands.renders, Operands.firstValue, ← o.coreChars?_render, ← others.coreChars?_firstValue]
    exact coreChars?_firstMeaningful?_cons o.isOperand_render.isType o.contains_render others.renders

end

/-- **An annotation means what it says**: the text of every type comes down to the meaning of the
type. -/
theorem TypeExpr.core_text_eq_meaning (t : TypeExpr) : core? t.text = t.meaning := by
  rw [core?, TypeExpr.text, String.toList_ofList, t.coreChars?_render]

/-- A name without a qualifier. -/
def QualifiedName.plain (chars : List Char) (h : TypeName.isIdentifier chars = true)
    (hword : chars ≠ "readonly".toList) : QualifiedName :=
  ⟨[], ⟨chars, h⟩, fun hreadonly => hword hreadonly.2⟩

/-- The reader has to see a wrapper, an array, a union and a generic type in this text. -/
example :
    let name := fun chars h hword => Operand.name (.plain chars h hword)
    let null := name "null".toList (by decide) (by decide)
    let user := name "User".toList (by decide) (by decide)
    let page := Operand.generic (.plain "Page".toList (by decide) (by decide)) .square
      (.last (.operand user))
    let t := TypeExpr.operand (.generic (.plain "Promise".toList (by decide) (by decide)) .angle
      (.last (.operand (.array (.union null (.last page))))))
    t.text = "Promise<(null | Page[User])[]>" ∧ t.meaning = some ⟨"Page", true, ["User"]⟩ := by
  decide

end CodeAtlas
