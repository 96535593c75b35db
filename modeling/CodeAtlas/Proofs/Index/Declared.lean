import CodeAtlas.Proofs.Index.Form
import CodeAtlas.Proofs.Outline.TopLevel
import CodeAtlas.Proofs.Syntax.Capture
import CodeAtlas.TypeName

/-!
# Declarations that the index finds

The index knows a declaration by its line: modifiers and a keyword with blanks after them, and then
the name (`IsHeadline`), which opens with a capital letter (`IsTypeName`). On such a line a form of
the language finds the name (`IsHeadline.exists_form`), and a scan finds on any line what a form
finds there. A name that could stand for a declared type opens with a capital letter unless a low
line or a dollar sign comes first (`IsPlain.isTypeName`). So the index has the name of every type at
the top of a file that is declared on such a line under such a name
(`mem_declaredNames_of_isWritten`); what else stands in front of a declaration on its line, or of
the letters in its name, hides it (`misses_sideBySide_annotated`).
-/

namespace CodeAtlas.Index

open Text

/-! ## 1. Words with blanks after them -/

/-- **Words with blanks after each**, and what follows them. -/
inductive Spaced : List String → List Char → List Char → Prop
  | nil {rest : List Char} : Spaced [] rest rest
  | cons {word : String} {words : List String} {gap cs rest : List Char} (hne : gap ≠ [])
      (hblank : ∀ c ∈ gap, isBlank c = true) (h : Spaced words cs rest) :
      Spaced (word :: words) (word.toList ++ (gap ++ cs)) rest

variable {word other keyword : String} {words modifiers : List String} {gap cs rest : List Char}

/-- A text that does not open with a blank. -/
def Opens (cs : List Char) : Prop :=
  ∀ c ∈ cs.head?, isBlank c = false

theorem Spaced.opens (h : Spaced words cs rest) (hwords : ∀ word ∈ words, IsKeyword word)
    (hrest : Opens rest) : Opens cs := by
  cases h with
  | nil => exact hrest
  | @cons word words gap cs _ hne hblank h =>
    obtain ⟨hword, hchars⟩ := hwords word List.mem_cons_self
    obtain ⟨c, inner, hinner⟩ := List.exists_cons_of_ne_nil (mt String.toList_eq_nil_iff.1 hword)
    intro d hd
    rw [hinner, List.cons_append, List.head?_cons, Option.mem_some] at hd
    subst hd
    exact (hchars c (hinner ▸ List.mem_cons_self)).1

theorem blanks?_append (hne : gap ≠ []) (hblank : ∀ c ∈ gap, isBlank c = true) (hcs : Opens cs) :
    blanks? (gap ++ cs) = some cs := by
  obtain ⟨b, gap, rfl⟩ := List.exists_cons_of_ne_nil hne
  have hdrop : (gap ++ cs).dropWhile isBlank = cs := by
    rw [List.dropWhile_append_of_pos fun c hc => hblank c (List.mem_cons_of_mem b hc)]
    cases cs with
    | nil => rfl
    | cons c cs => exact List.dropWhile_cons_of_neg (by rw [hcs c rfl]; exact Bool.false_ne_true)
  rw [List.cons_append, blanks?, if_pos (hblank b List.mem_cons_self), hdrop]

/-- A word fits in front of a text that opens with it, and of no other that opens with a word. -/
theorem word?_append (hword : IsKeyword word) (hother : IsKeyword other) (hne : gap ≠ [])
    (hblank : ∀ c ∈ gap, isBlank c = true) (hcs : Opens cs) :
    word? word (other.toList ++ (gap ++ cs)) = if word = other then some cs else none := by
  split
  · rename_i hsame
    rw [hsame, word?, dropStart?_append, Option.bind_some, blanks?_append hne hblank hcs]
  · rename_i hdiffer
    rw [word?, Option.bind_eq_none_iff]
    intro tail htail
    have hsplit := (eq_append_of_dropStart? htail).symm
    rcases List.append_eq_append_iff.1 hsplit with ⟨middle, hlonger, htail⟩ | ⟨middle, hlonger, hgap⟩
    -- the text goes on with another character of its word, or the blank after it is in the word
    · cases middle with
      | nil => exact absurd (String.toList_injective (by simpa using hlonger.symm)) hdiffer
      | cons c middle =>
        have hc := (hother.2 c (hlonger ▸ List.mem_append_right _ List.mem_cons_self)).1
        rw [htail, List.cons_append, blanks?, hc, if_neg Bool.false_ne_true]
    · cases middle with
      | nil => exact absurd (String.toList_injective (by simpa using hlonger)) hdiffer
      | cons c middle =>
        obtain ⟨b, gap, rfl⟩ := List.exists_cons_of_ne_nil hne
        have hc := (hword.2 c (hlonger ▸ List.mem_append_right _ List.mem_cons_self)).1
        rw [← (List.cons.inj hgap).1, hblank b List.mem_cons_self] at hc
        cases hc

/-- What the pieces of a form make of a text that opens with a word. -/
theorem Spaced.exists_word? (h : Spaced (other :: words) cs rest)
    (hwords : ∀ word ∈ other :: words, IsKeyword word) (hrest : Opens rest) :
    ∃ tail, Spaced words tail rest ∧
      ∀ word, IsKeyword word → word? word cs = if word = other then some tail else none := by
  cases h with
  | @cons _ _ gap tail _ hne hblank h =>
    have htail := h.opens (fun word hword => hwords word (List.mem_cons_of_mem other hword)) hrest
    exact ⟨tail, h, fun word hword =>
      word?_append hword (hwords other List.mem_cons_self) hne hblank htail⟩

theorem oneOf?_eq {tail : List Char}
    (h : ∀ word ∈ words, word? word cs = if word = other then some tail else none) :
    oneOf? words cs = if other ∈ words then some tail else none := by
  induction words with
  | nil => rfl
  | cons word words ih =>
    have ih := ih fun w hw => h w (List.mem_cons_of_mem word hw)
    rw [oneOf?] at ih ⊢
    rw [List.findSome?_cons, h word List.mem_cons_self]
    by_cases hsame : word = other
    · rw [if_pos hsame, if_pos (hsame ▸ List.mem_cons_self)]
    · rw [if_neg hsame, ih]
      refine if_congr ?_ rfl rfl
      rw [List.mem_cons, or_iff_right (Ne.symm hsame)]

theorem isKeyword_of_mem_append {taken : List String} (htaken : ∀ word ∈ taken, IsKeyword word)
    (hkeyword : IsKeyword keyword) : ∀ word ∈ taken ++ [keyword], IsKeyword word := by
  intro word hword
  rcases List.mem_append.1 hword with hword | hword
  · exact htaken word hword
  · exact List.mem_singleton.1 hword ▸ hkeyword

/-- Of some words in the order of their list, all are taken. -/
theorem Spaced.optional {taken : List String} (h : Spaced (taken ++ [keyword]) cs rest)
    (htaken : taken.Sublist modifiers) (hmodifiers : ∀ word ∈ modifiers, IsKeyword word)
    (hkeyword : IsKeyword keyword) (hnodup : modifiers.Nodup) (hnot : keyword ∉ modifiers)
    (hrest : Opens rest) : Spaced [keyword] (optional modifiers cs) rest := by
  have hwords := isKeyword_of_mem_append (fun w hw => hmodifiers w (htaken.subset hw)) hkeyword
  induction htaken generalizing cs with
  | slnil => exact h
  -- a modifier that is not taken fits nowhere: the text opens with a later one or the keyword
  | @cons taken modifiers word hsub ih =>
    obtain ⟨hnew, hnodup⟩ := List.nodup_cons.1 hnodup
    have hmissing : word? word cs = none := by
      obtain ⟨first, others, hfirst⟩ : ∃ first others, taken ++ [keyword] = first :: others :=
        List.exists_cons_of_ne_nil (List.append_ne_nil_of_right_ne_nil _ (List.cons_ne_nil _ _))
      rw [hfirst] at h hwords
      obtain ⟨tail, -, hword⟩ := h.exists_word? hwords hrest
      rw [hword word (hmodifiers word List.mem_cons_self), if_neg]
      rintro rfl
      have hmem : word ∈ taken ++ [keyword] := hfirst ▸ List.mem_cons_self
      rcases List.mem_append.1 hmem with hmem | hmem
      · exact hnew (hsub.subset hmem)
      · exact hnot (List.mem_singleton.1 hmem ▸ List.mem_cons_self)
    rw [Index.optional, List.foldl_cons, hmissing]
    exact ih h (fun w hw => hmodifiers w (List.mem_cons_of_mem word hw)) hnodup
      (fun hmem => hnot (List.mem_cons_of_mem word hmem)) hwords
  | @cons_cons taken modifiers word hsub ih =>
    obtain ⟨hnew, hnodup⟩ := List.nodup_cons.1 hnodup
    obtain ⟨tail, htail, hword⟩ := h.exists_word? hwords hrest
    rw [Index.optional, List.foldl_cons, hword word (hmodifiers word List.mem_cons_self),
      if_pos rfl]
    exact ih htail (fun w hw => hmodifiers w (List.mem_cons_of_mem word hw)) hnodup
      (fun hmem => hnot (List.mem_cons_of_mem word hmem))
      (fun w hw => hwords w (List.mem_cons_of_mem word hw))

theorem Spaced.length_le (h : Spaced words cs rest) (hwords : ∀ word ∈ words, IsKeyword word) :
    words.length ≤ cs.length := by
  induction h with
  | nil => exact Nat.zero_le _
  | @cons word words gap cs rest hne hblank h ih =>
    have hgap := List.length_pos_iff.2 hne
    have ih := ih fun w hw => hwords w (List.mem_cons_of_mem word hw)
    rw [List.length_cons, List.length_append, List.length_append]
    omega

/-- Of some words in any order, all are taken. -/
theorem Spaced.many {taken : List String} {fuel : Nat} (h : Spaced (taken ++ [keyword]) cs rest)
    (htaken : ∀ word ∈ taken, word ∈ modifiers) (hmodifiers : ∀ word ∈ modifiers, IsKeyword word)
    (hkeyword : IsKeyword keyword) (hnot : keyword ∉ modifiers) (hrest : Opens rest)
    (hfuel : taken.length ≤ fuel) : Spaced [keyword] (many modifiers fuel cs) rest := by
  induction taken generalizing cs fuel with
  -- no modifier is the keyword, so the loop stops in front of it, whatever fuel is left
  | nil =>
    cases fuel with
    | zero => exact h
    | succ fuel =>
      obtain ⟨tail, -, hword⟩ := h.exists_word?
        (fun word hword => List.mem_singleton.1 hword ▸ hkeyword) hrest
      have hnone := oneOf?_eq fun word hmem => hword word (hmodifiers word hmem)
      rw [if_neg hnot] at hnone
      rw [Index.many, hnone]
      exact h
  | cons first taken ih =>
    have hwords := isKeyword_of_mem_append (fun w hw => hmodifiers w (htaken w hw)) hkeyword
    obtain ⟨tail, htail, hword⟩ := h.exists_word? hwords hrest
    have hsome := oneOf?_eq fun word hmem => hword word (hmodifiers word hmem)
    rw [if_pos (htaken first List.mem_cons_self)] at hsome
    cases fuel with
    | zero => exact absurd hfuel (Nat.not_succ_le_zero _)
    | succ fuel =>
      rw [Index.many, hsome]
      exact ih htail (fun w hw => htaken w (List.mem_cons_of_mem first hw))
        (Nat.le_of_succ_le_succ hfuel)

/-! ## 2. Lines that declare -/

/-- The characters that the names of a language go on with. -/
def goesOn : Language → Char → Bool
  | .java | .python => isWord
  | .typescript | .javascript | .go => isScriptNameChar

/-- The modifiers that may stand before a keyword of a script file, in their order. -/
def scriptHeads : Language → List (List String × String)
  | .typescript =>
    [(["export", "default", "declare", "abstract"], "class"), (["export", "declare"], "interface"),
      (["export", "declare", "const"], "enum")]
  | .javascript => [(["export", "default", "declare", "abstract"], "class")]
  | .java | .python | .go => []

/-- **The words in front of the name of a type**: a keyword after some of its modifiers, which have
an order in script files and none in Java files. -/
def IsHead (language : Language) (words : List String) : Prop :=
  match language with
  | .typescript | .javascript | .go => ∃ head ∈ scriptHeads language, ∃ taken : List String,
      taken.Sublist head.1 ∧ words = taken ++ [head.2]
  | .java => ∃ taken keyword, (∀ word ∈ taken, word ∈ javaModifiers) ∧
      keyword ∈ ["class", "interface", "enum", "record"] ∧ words = taken ++ [keyword]
  | .python => words = ["class"]

/-- **A line declares a name**: it has the words of a declaration in front, indented by spaces and
tabs or, in a Python file, not at all, and then the name up to its end. -/
structure IsHeadline (language : Language) (line : List Char) (name : String)
    (after : List Char) : Prop where
  words : ∃ words margin cs, IsHead language words ∧ line = margin ++ cs ∧
    (∀ c ∈ margin, c = ' ' ∨ c = '\t') ∧ (language = .python → margin = []) ∧
    Spaced words cs (name.toList ++ after)
  ends : ∀ c ∈ after.head?, goesOn language c = false

/-- **A name that forms read**: it opens with a capital letter. -/
def IsTypeName (language : Language) (name : String) : Prop :=
  ∃ c inner, name.toList = c :: inner ∧ c.isUpper = true ∧ ∀ d ∈ inner, goesOn language d = true

section Headline

variable {language : Language} {line before after margin : List Char} {name : String}

theorem IsTypeName.name?_append (h : IsTypeName language name)
    (hends : ∀ c ∈ after.head?, goesOn language c = false) :
    name? (goesOn language) (name.toList ++ after) = some (name, after) := by
  obtain ⟨c, inner, hname, hupper, hinner⟩ := h
  have htake : (inner ++ after).takeWhile (goesOn language) = inner ∧
      (inner ++ after).dropWhile (goesOn language) = after := by
    rw [List.takeWhile_append_of_pos hinner, List.dropWhile_append_of_pos hinner]
    cases after with
    | nil => exact ⟨List.append_nil _, rfl⟩
    | cons d after =>
      have hd : ¬ goesOn language d = true := by rw [hends d rfl]; exact Bool.false_ne_true
      rw [List.takeWhile_cons_of_neg hd, List.dropWhile_cons_of_neg hd]
      exact ⟨List.append_nil _, rfl⟩
  rw [hname, List.cons_append, name?, if_pos hupper, htake.1, htake.2, ← hname, String.ofList_toList]

/-- A name does not open with a blank. -/
theorem IsTypeName.opens (h : IsTypeName language name) (after : List Char) :
    Opens (name.toList ++ after) := by
  obtain ⟨c, inner, hname, hupper, -⟩ := h
  intro d hd
  rw [hname, List.cons_append, List.head?_cons, Option.mem_some] at hd
  subst hd
  by_contra hblank
  rw [isUpper_of_isBlank (Bool.not_eq_false _ ▸ hblank)] at hupper
  cases hupper

theorem indent_append (hmargin : ∀ c ∈ margin, c = ' ' ∨ c = '\t') (hcs : Opens cs) :
    indent (margin ++ cs) = cs := by
  have hall : ∀ c ∈ margin, (c == ' ' || c == '\t') = true := by
    intro c hc
    rw [Bool.or_eq_true, beq_iff_eq, beq_iff_eq]
    exact hmargin c hc
  rw [indent, List.dropWhile_append_of_pos hall]
  cases cs with
  | nil => rfl
  | cons c cs =>
    refine List.dropWhile_cons_of_neg fun hc => ?_
    rw [Bool.or_eq_true, beq_iff_eq, beq_iff_eq] at hc
    have hblank := hcs c rfl
    rcases hc with rfl | rfl <;> exact absurd hblank (by decide)

/-- The keyword at the end of a head is taken. -/
theorem Spaced.word?_eq (h : Spaced [keyword] cs rest) (hkeyword : IsKeyword keyword)
    (hrest : Opens rest) : word? keyword cs = some rest := by
  obtain ⟨tail, htail, hword⟩ := h.exists_word?
    (fun word hword => List.mem_singleton.1 hword ▸ hkeyword) hrest
  cases htail
  rw [hword keyword hkeyword, if_pos rfl]

theorem scriptForm_eq {taken : List String} (hspaced : Spaced (taken ++ [keyword]) cs rest)
    (htaken : taken.Sublist modifiers) (hmodifiers : ∀ word ∈ modifiers, IsKeyword word)
    (hkeyword : IsKeyword keyword) (hnodup : modifiers.Nodup) (hnot : keyword ∉ modifiers)
    (hmargin : ∀ c ∈ margin, c = ' ' ∨ c = '\t') (hrest : Opens rest) :
    scriptForm modifiers keyword (margin ++ cs) = name? isScriptNameChar rest := by
  have hwords := isKeyword_of_mem_append (fun w hw => hmodifiers w (htaken.subset hw)) hkeyword
  have hcs : Opens cs := hspaced.opens hwords hrest
  have hlast := hspaced.optional htaken hmodifiers hkeyword hnodup hnot hrest
  rw [scriptForm, indent_append hmargin hcs, hlast.word?_eq hkeyword hrest, Option.bind_some]

theorem javaType_eq {taken : List String} (hspaced : Spaced (taken ++ [keyword]) cs rest)
    (htaken : ∀ word ∈ taken, word ∈ javaModifiers)
    (hkeyword : keyword ∈ ["class", "interface", "enum", "record"])
    (hmargin : ∀ c ∈ margin, c = ' ' ∨ c = '\t') (hrest : Opens rest) :
    javaType (margin ++ cs) = name? isWord rest := by
  have hmodifiers := isKeyword_of_mem_javaModifiers
  have hword := isKeyword_of_mem_keywords keyword hkeyword
  have hwords := isKeyword_of_mem_append (fun w hw => hmodifiers w (htaken w hw)) hword.1
  have hfuel : taken.length ≤ (margin ++ cs).length := by
    have hlength := hspaced.length_le hwords
    rw [List.length_append] at hlength ⊢
    omega
  have hlast := hspaced.many htaken hmodifiers hword.1 hword.2 hrest hfuel
  obtain ⟨tail, htail, hlast⟩ := hlast.exists_word?
    (fun w hw => List.mem_singleton.1 hw ▸ hword.1) hrest
  cases htail
  have hone := oneOf?_eq fun w hw => hlast w (isKeyword_of_mem_keywords w hw).1
  rw [if_pos hkeyword] at hone
  rw [javaType, indent_append hmargin (hspaced.opens hwords hrest), hone, Option.bind_some]

theorem isKeyword_of_mem_scriptHeads : ∀ head ∈ scriptHeads language,
    (∀ word ∈ head.1, IsKeyword word) ∧ IsKeyword head.2 ∧ head.1.Nodup ∧ head.2 ∉ head.1 := by
  cases language <;> decide +kernel

theorem scriptForm_mem_forms : ∀ head ∈ scriptHeads language,
    scriptForm head.1 head.2 ∈ forms language := by
  intro head hhead
  cases language with
  | typescript =>
    rw [scriptHeads, List.mem_cons, List.mem_cons, List.mem_singleton] at hhead
    rcases hhead with rfl | rfl | rfl
    · exact List.mem_cons_self
    · exact List.mem_cons_of_mem _ List.mem_cons_self
    · exact List.mem_cons_of_mem _ (List.mem_cons_of_mem _ (List.mem_cons_of_mem _
        (List.mem_singleton_self _)))
  | javascript =>
    cases List.mem_singleton.1 hhead
    exact List.mem_singleton_self _
  | java | python | go => exact absurd hhead List.not_mem_nil

/-- **A form of the language finds the name** on a line that declares it. -/
theorem IsHeadline.exists_form (h : IsHeadline language line name after)
    (htype : IsTypeName language name) :
    ∃ form ∈ forms language, form.IsAnchored (goesOn language) ∧ form line = some (name, after) := by
  obtain ⟨words, margin, cs, hhead, rfl, hmargin, hpython, hspaced⟩ := h.words
  have hname := htype.name?_append h.ends
  have hrest := htype.opens after
  cases language with
  | java =>
    obtain ⟨taken, keyword, htaken, hkeyword, rfl⟩ := hhead
    refine ⟨javaType, List.mem_singleton_self _, isAnchored_javaType, ?_⟩
    exact (javaType_eq hspaced htaken hkeyword hmargin hrest).trans hname
  | python =>
    cases hhead
    refine ⟨pythonClass, List.mem_singleton_self _, isAnchored_pythonClass, ?_⟩
    rw [hpython rfl, List.nil_append, pythonClass, hspaced.word?_eq isKeyword_class hrest]
    exact hname
  | typescript | javascript | go =>
    obtain ⟨head, hmem, taken, htaken, rfl⟩ := hhead
    obtain ⟨hmodifiers, hkeyword, hnodup, hnot⟩ := isKeyword_of_mem_scriptHeads head hmem
    refine ⟨_, scriptForm_mem_forms head hmem, isAnchored_scriptForm hmodifiers hkeyword, ?_⟩
    exact (scriptForm_eq hspaced htaken hmodifiers hkeyword hnodup hnot hmargin hrest).trans hname

/-- **The index finds every name that a line declares**, wherever the line stands. -/
theorem mem_declaredNames_of_isHeadline {text : String} (h : IsHeadline language line name after)
    (htype : IsTypeName language name) (htext : text.toList = before ++ line)
    (hlast : ∀ c ∈ before.getLast?, c = '\n') :
    name ∈ declaredNames (some language) text := by
  obtain ⟨form, hform, hanchored, hline⟩ := h.exists_form htype
  have hnewline : goesOn language '\n' = false := by cases language <;> decide +kernel
  rw [declaredNames, List.mem_eraseDups, List.mem_flatMap]
  refine ⟨form, hform, ?_⟩
  rw [htext]
  exact hanchored.mem_namesFrom hnewline hline (fun _ => rfl) hlast (Nat.zero_le _)

/-- The identifiers that could stand for a declared type. -/
theorem isIdentifier_of_isDeclared (h : TypeName.isDeclared name = true) :
    TypeName.isIdentifier (dropFinalNewline name.toList) = true ∧
      TypeName.isCapitalised name.toList = true := by
  rw [TypeName.isDeclared, beq_iff_eq] at h
  unfold TypeName.classify at h
  split at h
  · cases h
  split at h
  · cases h
  split at h
  · cases h
  split at h
  · rwa [Bool.and_eq_true] at *
  · cases h

theorem dropFinalNewline_of_notMem {cs : List Char} (h : '\n' ∉ cs) : dropFinalNewline cs = cs := by
  rw [dropFinalNewline, dropFinal?, if_neg]
  · rfl
  · intro hsuffix
    exact h ((List.isSuffixOf_iff_suffix.1 hsuffix).subset List.mem_cons_self)

theorem isUpper_of_isAlpha {c : Char} (halpha : c.isAlpha = true) (h : Text.isUpper c = true) :
    c.isUpper = true := by
  rcases Bool.or_eq_true_iff.1 halpha with hupper | hlower
  · exact hupper
  · have hrange : c.val ≤ 'z'.val := of_decide_eq_true (Bool.and_eq_true_iff.1 hlower).2
    have hhigh : c.toNat ≤ 122 := UInt32.le_iff_toNat_le.1 hrange
    rwa [Text.isUpper, if_pos (by omega)] at h

/-- **A plain name**: it opens with neither a low line nor a dollar sign, and has a dollar sign only
in a language whose names go on with it. -/
structure IsPlain (language : Language) (name : String) : Prop where
  newline : '\n' ∉ name.toList
  first : ∀ c ∈ name.toList.head?, c ≠ '_' ∧ c ≠ '$'
  dollar : '$' ∈ name.toList → goesOn language '$' = true

/-- **A plain name that could stand for a declared type** is one that forms read. -/
theorem IsPlain.isTypeName (hplain : IsPlain language name) (h : TypeName.isDeclared name = true) :
    IsTypeName language name := by
  obtain ⟨hnewline, hfirst, hdollar⟩ := hplain
  obtain ⟨hidentifier, hcapital⟩ := isIdentifier_of_isDeclared h
  rw [dropFinalNewline_of_notMem hnewline] at hidentifier
  cases hname : name.toList with
  | nil =>
    rw [hname] at hidentifier
    cases hidentifier
  | cons c inner =>
    rw [hname] at hidentifier hcapital hfirst hdollar
    obtain ⟨hlow, hsign⟩ := hfirst c rfl
    have hkept : ¬ (c == '_' || c == '$') = true := by simp [hlow, hsign]
    rw [TypeName.isCapitalised, List.dropWhile_cons, if_neg hkept] at hcapital
    rw [TypeName.isIdentifier, Bool.and_eq_true, List.all_eq_true] at hidentifier
    have halpha : c.isAlpha = true := by
      simpa [TypeName.isIdentifierStart, hlow, hsign] using hidentifier.1
    refine ⟨c, inner, hname, isUpper_of_isAlpha halpha hcapital, fun d hd => ?_⟩
    have hd' := hidentifier.2 d hd
    by_cases hsame : d = '$'
    · exact hsame ▸ hdollar (hsame ▸ List.mem_cons_of_mem c hd)
    · have hword : isWord d = true := by simpa [TypeName.isIdentifierChar, hsame] using hd'
      cases language <;> simp [goesOn, isScriptNameChar, hword]

end Headline

/-! ## 3. Types at the top of a file -/

section TopLevel

variable {language : Language} {path text : String} {root declaration name : Syntax.Node}
  {outline : Outline}

/-- **A name is written where its line declares it**: the node has its text at its place in the
source, and a line of the source that declares a name has that text there. -/
def IsWritten (language : Language) (text : String) (name : Syntax.Node) : Prop :=
  ∃ before line after : List Char, text.toList = before ++ line ∧
    (∀ c ∈ before.getLast?, c = '\n') ∧ IsHeadline language line name.text after ∧
    ∃ front, text.toList = front ++ (name.text.toList ++ after) ∧
      name.start = (String.ofList front).utf8ByteSize

/-- **The index has every type that its line declares**: where a type at the top of a file without
faults is written on a line that declares it, the outline has a class of its name and line, and the
index has the name. -/
theorem mem_declaredNames_of_isWritten (h : Outline.ofTree language path root = .ok outline)
    (hdeclares : Outline.DeclaresAtTop language root declaration)
    (hname : declaration.field? "name" = some name) (hclass : TypeName.isDeclared name.text = true)
    (hplain : IsPlain language name.text) (hwritten : IsWritten language text name) :
    ∃ c ∈ outline.classes, c.name = name.text ∧ c.line = declaration.line ∧
      c.name ∈ declaredNames (some language) text := by
  obtain ⟨before, line, after, htext, hlast, hline, -⟩ := hwritten
  have hfield : declaration.fieldText "name" = name.text := by
    rw [Syntax.Node.fieldText, hname]
    rfl
  have htype := hplain.isTypeName hclass
  have hne : declaration.fieldText "name" ≠ "" := by
    obtain ⟨c, inner, hchars, -⟩ := htype
    rw [hfield]
    exact fun hempty => List.cons_ne_nil c inner (hchars.symm.trans (hempty ▸ rfl))
  obtain ⟨c, hc, hsame, hlines⟩ := @Outline.exists_class_of_declaresAtTop path _ _ _ hdeclares hne
  rw [hfield] at hsame
  refine ⟨c, ?_, hsame, hlines, ?_⟩
  · unfold Outline.ofTree at h
    split at h
    · cases h
    · exact Except.ok.inj h ▸ hc
  · rw [hsame]
    exact mem_declaredNames_of_isHeadline hline htype htext hlast

end TopLevel

/-- A script file of three classes: one whose name opens with a low line, and two on one line. -/
def sideBySide : String :=
  "class _Base \x7b\x7d\nclass A \x7b\x7d class B \x7b\x7d\n"

/-- The tree of `sideBySide`. -/
def sideBySideTree : Syntax.Node :=
  let rule := (Syntax.Source.ofString sideBySide).rule
  let token := (Syntax.Source.ofString sideBySide).token
  rule 0 "program" none 0 37
    [rule 1 "class_declaration" none 0 14
      [token 2 "class" 0 5, rule 3 "type_identifier" (some "name") 6 11 [],
        rule 4 "class_body" (some "body") 12 14 [token 5 "\x7b" 12 13, token 6 "\x7d" 13 14]],
    rule 7 "class_declaration" none 15 25
      [token 8 "class" 15 20, rule 9 "type_identifier" (some "name") 21 22 [],
        rule 10 "class_body" (some "body") 23 25 [token 11 "\x7b" 23 24, token 12 "\x7d" 24 25]],
    rule 13 "class_declaration" none 26 36
      [token 14 "class" 26 31, rule 15 "type_identifier" (some "name") 32 33 [],
        rule 16 "class_body" (some "body") 34 36 [token 17 "\x7b" 34 35, token 18 "\x7d" 35 36]]]

/-- The class between the other two is on a line that declares it. -/
theorem isWritten_sideBySide : ∃ declaration name,
    Outline.DeclaresAtTop .typescript sideBySideTree declaration ∧
      declaration.field? "name" = some name ∧ name.text = "A" ∧
      IsWritten .typescript sideBySide name := by
  have hnode : ∃ d ∈ sideBySideTree.named, Outline.Script.isTypeDeclaration d = true ∧
      ((d.field? "name").any fun n => n.text == "A" && n.start == 21) = true := by
    decide +kernel
  obtain ⟨declaration, hmem, htype, hany⟩ := hnode
  obtain ⟨name, hname, hplace⟩ := (Option.any_eq_true _ _).1 hany
  rw [Bool.and_eq_true, beq_iff_eq, beq_iff_eq] at hplace
  have hline : IsHeadline .typescript ("class A".toList ++ ' ' :: "\x7b\x7d class B \x7b\x7d\n".toList)
      "A" (' ' :: "\x7b\x7d class B \x7b\x7d\n".toList) := by
    refine ⟨⟨["class"], [], _, ?_, rfl, nofun, nofun, ?_⟩, ?_⟩
    · exact ⟨_, List.mem_cons_self, [], List.nil_sublist _, rfl⟩
    · refine .cons (List.cons_ne_nil ' ' []) (fun c hc => ?_) .nil
      rw [List.mem_singleton.1 hc]
      decide
    · rintro _ ⟨⟩
      decide
  refine ⟨declaration, name, ⟨declaration, hmem, .itself htype rfl⟩, hname, hplace.1,
    "class _Base \x7b\x7d".toList ++ ['\n'], _, _, by decide +kernel, ?_, hplace.1 ▸ hline,
    "class _Base \x7b\x7d\nclass ".toList, ?_, ?_⟩
  · intro c hc
    rw [List.getLast?_concat] at hc
    exact (Option.some.inj hc).symm
  · rw [hplace.1]
    decide +kernel
  · rw [hplace.2]
    decide +kernel

theorem mem_declaredNames_sideBySide :
    ∃ outline declaration name,
      Outline.ofTree .typescript "/a.ts" sideBySideTree = .ok outline ∧
      Outline.DeclaresAtTop .typescript sideBySideTree declaration ∧
      declaration.field? "name" = some name ∧ TypeName.isDeclared name.text = true ∧
      IsPlain .typescript name.text ∧ IsWritten .typescript sideBySide name ∧
      ∃ c ∈ outline.classes, c.name = name.text ∧ c.line = declaration.line ∧
        c.name ∈ declaredNames (some .typescript) sideBySide := by
  have hsound : sideBySideTree.firstFault? = none := Option.isNone_iff_eq_none.1 (by decide +kernel)
  have htree := @Outline.ofTree_of_sound .typescript "/a.ts" _ hsound
  obtain ⟨declaration, name, hdeclares, hname, htext, hwritten⟩ := isWritten_sideBySide
  have hclass : TypeName.isDeclared name.text = true := by
    rw [htext]
    decide +kernel
  have hplain : IsPlain .typescript name.text := by
    rw [htext]
    refine ⟨by decide, ?_, by decide⟩
    rintro _ ⟨⟩
    decide
  exact ⟨_, declaration, name, htree, hdeclares, hname, hclass, hplain, hwritten,
    mem_declaredNames_of_isWritten htree hdeclares hname hclass hplain hwritten⟩

/-! ## 4. Types that the index misses -/

/-- A class at the top of a file is missing in the index, though its name could stand for a declared
type. -/
def Misses (language : Language) (path : String) (root : Syntax.Node) (text name : String) : Prop :=
  ∃ outline declaration, Outline.ofTree language path root = .ok outline ∧
    Outline.DeclaresAtTop language root declaration ∧
    (∃ c ∈ outline.classes, c.name = name ∧ c.line = declaration.line) ∧
    TypeName.isDeclared name = true ∧ name ∉ declaredNames (some language) text

/-- Names of types at the top of a file without faults that the index does not have are missing. -/
theorem misses_of_notMem {language : Language} {path text : String} {root : Syntax.Node}
    {names : List String} {p : Syntax.Node → Bool} (hsound : root.firstFault? = none)
    (hdeclares : ∀ d ∈ root.named, p d = true → Outline.DeclaresAtTop language root d)
    (hfield : ∀ name ∈ names, ∃ d ∈ root.named, p d = true ∧ d.fieldText "name" = name)
    (hmissing : ∀ name ∈ names, TypeName.isDeclared name = true ∧
      name ∉ declaredNames (some language) text) :
    ∀ name ∈ names, Misses language path root text name := by
  intro name hmem
  obtain ⟨declaration, hnode, htype, rfl⟩ := hfield name hmem
  obtain ⟨hclass, hmissing⟩ := hmissing _ hmem
  have htop := hdeclares declaration hnode htype
  refine ⟨_, declaration, Outline.ofTree_of_sound hsound, htop, ?_, hclass, hmissing⟩
  refine Outline.exists_class_of_declaresAtTop htop fun hempty => ?_
  rw [hempty] at hclass
  exact absurd hclass (by decide +kernel)

/-- A Java file of two classes: one with an annotation on its line, and one with a dollar sign in
its name. -/
def annotated : String :=
  "@Entity public class User \x7b\x7d\nclass A$B \x7b\x7d\n"

/-- The tree of `annotated`. -/
def annotatedTree : Syntax.Node :=
  let rule := (Syntax.Source.ofString annotated).rule
  let token := (Syntax.Source.ofString annotated).token
  rule 0 "program" none 0 42
    [rule 1 "class_declaration" none 0 28
      [rule 2 "modifiers" none 0 14
        [rule 3 "marker_annotation" none 0 7
          [token 4 "@" 0 1, rule 5 "identifier" (some "name") 1 7 []], token 6 "public" 8 14],
      token 7 "class" 15 20, rule 8 "identifier" (some "name") 21 25 [],
        rule 9 "class_body" (some "body") 26 28 [token 10 "\x7b" 26 27, token 11 "\x7d" 27 28]],
    rule 12 "class_declaration" none 29 41
      [token 13 "class" 29 34, rule 14 "identifier" (some "name") 35 38 [],
        rule 15 "class_body" (some "body") 39 41 [token 16 "\x7b" 39 40, token 17 "\x7d" 40 41]]]

/-- **Not every class is in the index**: not one that shares its line with what comes before, nor one
whose name is no capital letter followed by the characters of a name. -/
theorem misses_sideBySide_annotated :
    (∀ name ∈ ["_Base", "B"], Misses .typescript "/a.ts" sideBySideTree sideBySide name) ∧
      ∀ name ∈ ["User", "A$B"], Misses .java "/A.java" annotatedTree annotated name := by
  constructor
  · refine misses_of_notMem (Option.isNone_iff_eq_none.1 (by decide +kernel))
      (fun d hd htype => ⟨d, hd, .itself htype rfl⟩) ?_ ?_
    · decide +kernel
    · decide +kernel
  · refine misses_of_notMem (Option.isNone_iff_eq_none.1 (by decide +kernel))
      (fun d hd htype => ⟨hd, htype⟩) ?_ ?_
    · decide +kernel
    · decide +kernel

end CodeAtlas.Index
