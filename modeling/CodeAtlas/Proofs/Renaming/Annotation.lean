import CodeAtlas.Proofs.Annotation
import CodeAtlas.Proofs.Renaming.Text

/-!
# One name for another in an annotation

What an annotation comes down to under a new name is what it came down to before, renamed
(`Renaming.core?_string`). The reading knows some words, which are no names of declared types: it
looks for containers, for wrappers and for values that are none, and for `readonly`. The renaming must
leave them alone (`Renaming.Spares`).
-/

namespace CodeAtlas

open Text Annotation
open Annotation renaming shape → shapeOf
open CodeAtlas.TypeName (isIdentifierChar)

/-- The words that the reading of annotations knows. -/
def Annotation.knownWords : List String :=
  ["readonly", "Union"] ++ TypeName.untypedNames ++ TypeName.nullishNames ++
    TypeName.containerNames ++ TypeName.wrapperNames

namespace Renaming

variable (r : Renaming) {s : List Char} {c : Char} {words : List String}

/-! ## 1. Words that are left alone -/

/-- **A renaming spares some words**: none is one of its names. -/
def Spares (words : List String) : Prop :=
  ∀ word ∈ words, word.toList ≠ r.old ∧ word.toList ≠ r.new

instance (words : List String) : Decidable (r.Spares words) :=
  inferInstanceAs (Decidable (∀ word ∈ words, _))

theorem toList_string (s : String) : (r.string s).toList = r.text s.toList :=
  String.toList_ofList

theorem string_ofList (s : List Char) : r.string (String.ofList s) = String.ofList (r.text s) := by
  rw [string, onString, String.toList_ofList]

theorem isEmpty_string (s : String) : (r.string s).isEmpty = s.isEmpty := by
  rw [Bool.eq_iff_iff, String.isEmpty_iff, String.isEmpty_iff, ← String.toList_eq_nil_iff,
    toList_string, text_eq_nil_iff, String.toList_eq_nil_iff]

/-- What is the same under the new name as a text that the renaming is clear of is that text. -/
theorem eq_of_isClearOf {a b : String} (hab : r.string a = r.string b) (hb : r.IsClearOf b) :
    a = b := by
  rw [← String.toList_inj, toList_string, toList_string, r.text_eq_self hb.1] at hab
  exact String.toList_inj.1 ((r.text_eq_iff_of_isClearOf hb).1 hab)

variable {r}

theorem Spares.of_subset {more : List String} (h : r.Spares more) (hwords : words ⊆ more) :
    r.Spares words :=
  fun word hword => h word (hwords hword)

/-- A word that is spared is met before exactly where it is met after. -/
theorem Spares.string_eq_iff (h : r.Spares words) {word : String} (hword : word ∈ words)
    (hname : IsName word.toList) (s : String) : r.string s = word ↔ s = word := by
  obtain ⟨hold, hnew⟩ := h word hword
  rw [← String.toList_inj, toList_string, r.text_eq_iff hname hold hnew, String.toList_inj]

theorem Spares.string_beq (h : r.Spares words) {word : String} (hword : word ∈ words)
    (hname : IsName word.toList) (s : String) : (r.string s == word) = (s == word) := by
  rw [Bool.eq_iff_iff, beq_iff_eq, beq_iff_eq, h.string_eq_iff hword hname]

theorem Spares.beq_congr (h : r.Spares words) {word : String} (hword : word ∈ words)
    (hname : IsName word.toList) {a b : String} (hab : r.string a = r.string b) :
    (a == word) = (b == word) := by
  rw [← h.string_beq hword hname, hab, h.string_beq hword hname]

theorem Spares.contains_string (h : r.Spares words) (hnames : ∀ word ∈ words, IsName word.toList)
    (s : String) : words.contains (r.string s) = words.contains s := by
  rw [Bool.eq_iff_iff, List.contains_iff_mem, List.contains_iff_mem]
  constructor
  · intro hmem
    exact ((h.string_eq_iff hmem (hnames _ hmem) s).1 rfl) ▸ hmem
  · intro hmem
    rwa [(h.string_eq_iff hmem (hnames s hmem) s).2 rfl]

theorem Spares.contains_congr (h : r.Spares words) (hnames : ∀ word ∈ words, IsName word.toList)
    {a b : String} (hab : r.string a = r.string b) : words.contains a = words.contains b := by
  rw [← h.contains_string hnames, hab, h.contains_string hnames]

/-! ## 2. The bare text -/

theorem trimQuotes_text (s : List Char) : trimWhile isQuote (r.text s) = r.text (trimWhile isQuote s) :=
  trimWhile_text r (fun _ => isQuote_of_isIdentifierChar) s

theorem unquote_text (s : List Char) : unquote (r.text s) = r.text (unquote s) := by
  rw [unquote, trim_text, trimQuotes_text, trim_text, unquote]

theorem dropReadonly_text (h : r.Spares knownWords) (s : List Char) :
    dropReadonly (r.text s) = r.text (dropReadonly s) := by
  obtain ⟨hold, hnew⟩ := h "readonly" (by decide)
  have hdrop : dropStart? ['r', 'e', 'a', 'd', 'o', 'n', 'l', 'y', ' '] (r.text s)
      = (dropStart? ['r', 'e', 'a', 'd', 'o', 'n', 'l', 'y', ' '] s).map r.text :=
    r.dropStart?_text (w := "readonly".toList) (by decide) hold hnew (by decide) s
  rw [dropReadonly, hdrop, dropReadonly]
  cases dropStart? ['r', 'e', 'a', 'd', 'o', 'n', 'l', 'y', ' '] s with
  | none => rfl
  | some rest => exact r.trim_text rest

theorem hasArrow_cons (c : Char) (s : List Char) :
    hasArrow (c :: s) = ((c == '=' && s.head? == some '>') || hasArrow s) := by
  by_cases h : c = '=' ∧ s.head? = some '>'
  · obtain ⟨rfl, hhead⟩ := h
    obtain ⟨rest, rfl⟩ := List.head?_eq_some_iff.1 hhead
    rfl
  · have hno : (c == '=' && s.head? == some '>') = false := by
      rwa [← Bool.not_eq_true, Bool.and_eq_true, beq_iff_eq, beq_iff_eq]
    rw [hno, Bool.false_or, hasArrow]
    rintro rest rfl rfl
    exact h ⟨rfl, rfl⟩

theorem hasArrow_text (s : List Char) : hasArrow (r.text s) = hasArrow s := by
  have hword : ∀ {w : List Char}, (∀ c ∈ w, isIdentifierChar c = true) → ∀ s,
      hasArrow (w ++ s) = hasArrow s := by
    intro w hw s
    induction w with
    | nil => rfl
    | cons c w ih =>
      have hc : (c == '=') = false :=
        beq_eq_false_iff_ne.2 (ne_of_isIdentifierChar (by decide) (hw c List.mem_cons_self))
      rw [List.cons_append, hasArrow_cons, hc, Bool.false_and, Bool.false_or,
        ih fun d hd => hw d (List.mem_cons_of_mem c hd)]
  induction s using word_induction with
  | nil => rw [text_nil]
  | word w s hw hs ih =>
    rw [text_word_append r hw hs, hword (r.isName_word hw).2, ih, hword hw.2]
  | other c s hc ih =>
    rw [text_cons r hc, hasArrow_cons, hasArrow_cons, head?_text_beq r (by decide), ih]

theorem tail_text (hc : isIdentifierChar c = false) (h : s.head? = some c) :
    (r.text s).tail = r.text s.tail := by
  obtain ⟨rest, rfl⟩ := List.head?_eq_some_iff.1 h
  rw [text_cons r hc, List.tail_cons, List.tail_cons]

theorem dropLast_text (hc : isIdentifierChar c = false) (h : s.getLast? = some c) :
    (r.text s).dropLast = r.text s.dropLast := by
  obtain ⟨front, rfl⟩ := List.getLast?_eq_some_iff.1 h
  rw [text_append_cons r hc, text_nil, List.dropLast_concat, List.dropLast_concat]

theorem dropParens_text (s : List Char) : dropParens (r.text s) = r.text (dropParens s) := by
  rw [dropParens, head?_text_beq r (by decide), getLast?_text_beq r (by decide), hasArrow_text,
    dropParens]
  split
  · rename_i hparens
    rw [Bool.and_eq_true, Bool.and_eq_true, beq_iff_eq, beq_iff_eq] at hparens
    obtain ⟨⟨hhead, hlast⟩, -⟩ := hparens
    obtain ⟨rest, rfl⟩ := List.head?_eq_some_iff.1 hhead
    have hrest : rest.getLast? = some ')' := by
      cases rest with
      | nil => cases hlast
      | cons d rest => exact hlast
    rw [tail_text (by decide) hhead, List.tail_cons, dropLast_text (by decide) hrest, trim_text]
  · rfl

theorem bare_text (h : r.Spares knownWords) (s : List Char) : bare (r.text s) = r.text (bare s) := by
  rw [bare, unquote_text, dropReadonly_text h, dropParens_text, bare]

/-! ## 3. One step of reading -/

variable (r) in
/-- What an annotation comes down to, under the new name. -/
def core (found : CoreType) : CoreType :=
  { name := r.string found.name, isArray := found.isArray, arguments := found.arguments.map r.string }

variable (r) in
/-- The shape of an annotation, under the new name. -/
def shape : Shape → Shape
  | .absent => .absent
  | .named found => .named (r.core found)
  | .wrapped inner => .wrapped (r.text inner)
  | .collection element => .collection (r.text element)

theorem generic?_text (s : List Char) :
    generic? (r.text s) = (generic? s).map fun (name, inner) => (r.text name, r.text inner) := by
  rw [generic?_eq, generic?_eq, dropWhile_text r fun _ => isGenericName_of_isIdentifierChar,
    dropWhile_text r fun _ => isBlank_of_isIdentifierChar,
    takeWhile_text r fun _ => isGenericName_of_isIdentifierChar]
  generalize (s.dropWhile isGenericName).dropWhile isBlank = rest
  dsimp only
  rw [head?_text_beq r (by decide), head?_text_beq r (by decide), isEmpty_text]
  by_cases hopen : (rest.head? == some '<' || rest.head? == some '[') = true
  · have htail : (r.text rest).tail = r.text rest.tail := by
      rw [Bool.or_eq_true, beq_iff_eq, beq_iff_eq] at hopen
      exact hopen.elim (tail_text (by decide)) (tail_text (by decide))
    rw [htail, getLast?_text_beq r (by decide), getLast?_text_beq r (by decide)]
    by_cases hclose : (rest.tail.getLast? == some '>' || rest.tail.getLast? == some ']') = true
    · have hinner : (r.text rest.tail).dropLast = r.text rest.tail.dropLast := by
        rw [Bool.or_eq_true, beq_iff_eq, beq_iff_eq] at hclose
        exact hclose.elim (dropLast_text (by decide)) (dropLast_text (by decide))
      rw [hinner, afterLast_text r (by decide)]
      split
      · rfl
      · rfl
    · rw [Bool.eq_false_iff.2 hclose, Bool.and_false, Bool.false_and]
      rfl
  · rw [Bool.eq_false_iff.2 hopen]
    rfl

theorem firstMeaningful?_text (h : r.Spares knownWords) (members : List (List Char)) :
    firstMeaningful? (members.map r.text) = (firstMeaningful? members).map r.text := by
  have hnullish : r.Spares TypeName.nullishNames := h.of_subset (by decide)
  rw [firstMeaningful?, List.find?_map, firstMeaningful?]
  have hsame : (fun m => !TypeName.nullishNames.contains (String.ofList (trimWhile isQuote m)))
      ∘ r.text = fun m => !TypeName.nullishNames.contains (String.ofList (trimWhile isQuote m)) := by
    funext m
    rw [Function.comp_apply, trimQuotes_text, ← string_ofList, hnullish.contains_string (by decide)]
  rw [hsame]

theorem unionShape_text (h : r.Spares knownWords) (members : List (List Char)) :
    unionShape (members.map r.text) = r.shape (unionShape members) := by
  rw [unionShape, firstMeaningful?_text h, unionShape]
  cases firstMeaningful? members with
  | none => rfl
  | some member => rfl

theorem genericShape_text (h : r.Spares knownWords) (base : String) (arguments : List (List Char)) :
    genericShape (r.string base) (arguments.map r.text) = r.shape (genericShape base arguments) := by
  have hcontainer : r.Spares TypeName.containerNames := h.of_subset (by decide)
  have hwrapper : r.Spares TypeName.wrapperNames := h.of_subset (by decide)
  have hunion : (r.string base == "Union") = (base == "Union") :=
    h.string_beq (by decide) (by decide) base
  rw [genericShape.eq_def, hunion, unionShape_text h, genericShape.eq_def]
  split
  · rfl
  · cases arguments with
    | nil => rfl
    | cons first more =>
      rw [List.map_cons]
      dsimp only
      rw [hcontainer.contains_string (by decide), hwrapper.contains_string (by decide),
        List.isEmpty_map]
      split
      · rfl
      split
      · rfl
      · have harguments : (r.text first :: more.map r.text).map String.ofList
            = ((first :: more).map String.ofList).map r.string := by
          rw [← List.map_cons, List.map_map, List.map_map]
          exact List.map_congr_left fun argument _ => (r.string_ofList argument).symm
        rw [harguments]
        rfl

theorem plainShape_text (h : r.Spares knownWords) (s : List Char) :
    plainShape (r.text s) = r.shape (plainShape s) := by
  rw [plainShape, dropFinal?_text r (by decide), generic?_text, plainShape]
  cases dropFinal? ['[', ']'] s with
  | some element => rfl
  | none =>
    cases generic? s with
    | some found =>
      obtain ⟨base, inner⟩ := found
      rw [Option.map_none, Option.map_some]
      dsimp only
      rw [splitTopLevel_text r (by decide), ← string_ofList, genericShape_text h]
    | none =>
      rw [Option.map_none, Option.map_none]
      dsimp only
      rw [afterLast_text r (by decide), ← string_ofList]
      rfl

theorem shape_text (h : r.Spares knownWords) (s : List Char) :
    shapeOf (r.text s) = r.shape (shapeOf s) := by
  have huntyped : r.Spares TypeName.untypedNames := h.of_subset (by decide)
  unfold shapeOf
  rw [isEmpty_text, ← string_ofList, huntyped.contains_string (by decide),
    splitTopLevel_text r (by decide), plainShape_text h]
  split
  · rfl
  · cases splitTopLevel '|' s with
    | nil => rfl
    | cons first rest =>
      cases rest with
      | nil => rfl
      | cons second more => exact unionShape_text h (first :: second :: more)

/-! ## 4. The whole reading -/

theorem coreChars?_text (h : r.Spares knownWords) (s : List Char) :
    coreChars? (r.text s) = (coreChars? s).map r.core := by
  rw [coreChars?_eq, bare_text h, shape_text h]
  fun_induction coreChars? s with
  | case1 s hshape => rw [hshape]; rfl
  | case2 s found hshape => rw [hshape]; rfl
  | case3 s inner hshape ih =>
    rw [hshape, shape]
    dsimp only
    rw [coreChars?_eq, bare_text h, shape_text h, ih]
  | case4 s element hshape ih =>
    rw [hshape, shape]
    dsimp only
    rw [coreChars?_eq, bare_text h, shape_text h, ih, Option.map_map, Option.map_map]
    rfl

/-- **An annotation under the new name comes down to what it came down to, renamed.** -/
theorem core?_string (h : r.Spares knownWords) (written : String) :
    core? (r.string written) = (core? written).map r.core := by
  rw [core?, toList_string, coreChars?_text h, core?]

end Renaming

end CodeAtlas
