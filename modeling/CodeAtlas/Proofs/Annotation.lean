import CodeAtlas.Annotation
import CodeAtlas.Proofs.Text.Contiguous
import CodeAtlas.Proofs.Text.Name

/-!
# Names out of annotations

However malformed an annotation is, the name that it comes down to stands in it in one piece
(`infix_of_core?`). Each step of the reading goes on with a piece of its text, or takes the name
from one, and pieces of pieces are pieces.
-/

namespace CodeAtlas

/-- Only the names in the table, and no name at all, say nothing. -/
theorem TypeName.mem_of_classify_untyped {name : String} (h : classify name = .untyped) :
    name ∈ "" :: untypedNames := by
  unfold classify at h
  split at h
  · rename_i hname
    rcases Bool.or_eq_true_iff.1 hname with hempty | hname
    · rw [String.isEmpty_iff.1 hempty]
      exact List.mem_cons_self
    · exact List.mem_cons_of_mem _ (List.contains_iff_mem.1 hname)
  · repeat' split at h
    all_goals cases h

namespace Annotation

open Text
open CodeAtlas.TypeName (isIdentifierChar)

variable {cs inner name text : List Char} {core : CoreType} {c : Char}

/-! ## 1. The bare text -/

theorem isQuote_of_isIdentifierChar (h : isIdentifierChar c = true) : isQuote c = false := by
  rw [isQuote, Bool.or_eq_false_iff]
  exact ⟨beq_eq_false_iff_ne.2 (ne_of_isIdentifierChar (by decide) h),
    beq_eq_false_iff_ne.2 (ne_of_isIdentifierChar (by decide) h)⟩

theorem infix_dropReadonly (cs : List Char) : dropReadonly cs <:+: cs := by
  unfold dropReadonly
  split
  · rename_i rest hrest
    exact (infix_trim rest).trans (suffix_of_dropStart? hrest).isInfix
  · exact List.infix_refl cs

theorem infix_dropParens (cs : List Char) : dropParens cs <:+: cs := by
  unfold dropParens
  split
  · exact ((infix_trim _).trans (List.dropLast_prefix _).isInfix).trans (List.tail_suffix cs).isInfix
  · exact List.infix_refl cs

theorem infix_unquote (cs : List Char) : unquote cs <:+: cs :=
  ((infix_trim _).trans (infix_trimWhile _ _)).trans (infix_trim cs)

theorem infix_bare (cs : List Char) : bare cs <:+: cs :=
  ((infix_dropParens _).trans (infix_dropReadonly _)).trans (infix_unquote cs)

/-! ## 2. One step of reading -/

/-- The text that a shape goes on with, or the name that it gives. -/
def Shape.text? : Shape → Option (List Char)
  | .absent => none
  | .named core => some core.name.toList
  | .wrapped inner => some inner
  | .collection element => some element

theorem isGenericName_of_isIdentifierChar (h : isIdentifierChar c = true) :
    isGenericName c = true := by
  rw [isIdentifierChar, Bool.or_eq_true] at h
  rw [isGenericName, Bool.or_eq_true, Bool.or_eq_true]
  exact h.imp_left Or.inl

/-- The text from the first bracket on is told by its first character. -/
theorem generic?_eq (s : List Char) :
    generic? s =
      let rest := (s.dropWhile isGenericName).dropWhile isBlank
      if (rest.head? == some '<' || rest.head? == some '[') &&
          (rest.tail.getLast? == some '>' || rest.tail.getLast? == some ']') &&
          !(s.takeWhile isGenericName).isEmpty then
        some (afterLast '.' (s.takeWhile isGenericName), rest.tail.dropLast)
      else none := by
  unfold generic?
  dsimp only
  cases (s.dropWhile isGenericName).dropWhile isBlank with
  | nil => rfl
  | cons c rest => rfl

/-- The name in front of type arguments, and the text of the arguments. -/
theorem infix_of_generic? (h : generic? cs = some (name, inner)) :
    name <:+: cs ∧ inner <:+: cs := by
  unfold generic? at h
  split at h
  · cases h
  · rename_i c rest hrest
    split at h
    · cases h
      have hbracket : c :: rest <:+ cs :=
        hrest ▸ (List.dropWhile_suffix _).trans (List.dropWhile_suffix _)
      exact ⟨(suffix_afterLast _ _).isInfix.trans (List.takeWhile_prefix _).isInfix,
        (List.dropLast_prefix _).isInfix.trans ((List.suffix_cons c rest).trans hbracket).isInfix⟩
    · cases h

theorem mem_of_text?_unionShape {members : List (List Char)}
    (h : (unionShape members).text? = some text) : text ∈ members := by
  unfold unionShape at h
  split at h
  · cases h
  · rename_i member hmember
    rw [← Option.some.inj h]
    exact List.mem_of_find?_eq_some hmember

/-- A type with arguments gives its own name or goes on with an argument. -/
theorem mem_of_text?_genericShape {base : String} {arguments : List (List Char)}
    (h : (genericShape base arguments).text? = some text) :
    text = base.toList ∨ text ∈ arguments := by
  unfold genericShape at h
  split at h
  · exact Or.inr (mem_of_text?_unionShape h)
  · split at h
    · exact Or.inl (Option.some.inj h).symm
    · rename_i first more
      split at h
      · rw [← Option.some.inj h]
        exact Or.inr List.mem_cons_self
      · split at h
        · rw [← Option.some.inj h]
          exact Or.inr List.mem_cons_self
        · exact Or.inl (Option.some.inj h).symm

theorem infix_of_plainShape (h : (plainShape cs).text? = some text) : text <:+: cs := by
  unfold plainShape at h
  split at h
  · rename_i element helement
    rw [← Option.some.inj h]
    exact (prefix_of_dropFinal? helement).isInfix
  · split at h
    · rename_i base inner hgeneric
      obtain ⟨hbase, hinner⟩ := infix_of_generic? hgeneric
      rcases mem_of_text?_genericShape h with rfl | hmem
      · rw [String.toList_ofList]
        exact hbase
      · exact (infix_of_mem_splitTopLevel hmem).trans hinner
    · rw [← Option.some.inj h]
      change (String.ofList (afterLast '.' cs)).toList <:+: cs
      rw [String.toList_ofList]
      exact (suffix_afterLast _ _).isInfix

/-- **A shape has a piece of its text.** -/
theorem infix_of_shape (h : (shape cs).text? = some text) : text <:+: cs := by
  unfold shape at h
  split at h
  · cases h
  · split at h
    · rename_i first second more hmembers
      have hmem : text ∈ splitTopLevel '|' cs := hmembers ▸ mem_of_text?_unionShape h
      exact infix_of_mem_splitTopLevel hmem
    · exact infix_of_plainShape h

/-! ## 3. The whole reading -/

theorem coreChars?_eq (s : List Char) :
    coreChars? s = match Annotation.shape (bare s) with
      | .absent => none
      | .named found => some found
      | .wrapped inner => coreChars? inner
      | .collection element => (coreChars? element).map fun found => { found with isArray := true } := by
  rw [coreChars?]
  split <;> rename_i hshape <;> rw [hshape]

theorem infix_of_coreChars? (h : coreChars? cs = some core) : core.name.toList <:+: cs := by
  fun_induction coreChars? cs generalizing core with
  | case1 cs hshape => cases h
  | case2 cs found hshape =>
    cases h
    exact (infix_of_shape (congrArg Shape.text? hshape)).trans (infix_bare cs)
  | case3 cs inner hshape ih =>
    exact (ih h).trans ((infix_of_shape (congrArg Shape.text? hshape)).trans (infix_bare cs))
  | case4 cs element hshape ih =>
    obtain ⟨found, hfound, rfl⟩ := Option.map_eq_some_iff.1 h
    exact (ih hfound).trans ((infix_of_shape (congrArg Shape.text? hshape)).trans (infix_bare cs))

/-- A text that is empty when it is bare, or a name that says nothing, comes down to nothing. -/
theorem coreChars?_of_open
    (h : ((bare cs).isEmpty || TypeName.untypedNames.contains (String.ofList (bare cs))) = true) :
    coreChars? cs = none := by
  have hshape : shape (bare cs) = .absent := by rw [shape, if_pos h]
  unfold coreChars?
  split
  · rfl
  all_goals
    rename_i hother
    rw [hshape] at hother
    cases hother

/-- **What leaves the type open comes down to nothing.** -/
theorem classify_ne_untyped_of_core? {written : String} (h : core? written = some core) :
    TypeName.classify written ≠ .untyped := by
  intro huntyped
  have hopen := TypeName.mem_of_classify_untyped huntyped
  have hnames : ∀ name ∈ "" :: TypeName.untypedNames, ((bare name.toList).isEmpty ||
      TypeName.untypedNames.contains (String.ofList (bare name.toList))) = true := by decide
  rw [core?, coreChars?_of_open (hnames written hopen)] at h
  cases h

/-- **The name of an annotation stands in it in one piece.** -/
theorem infix_of_core? {written : String} (h : core? written = some core) :
    core.name.toList <:+: written.toList :=
  infix_of_coreChars? h

end Annotation

end CodeAtlas
