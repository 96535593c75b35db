import CodeAtlas.Index.Declared
import CodeAtlas.Proofs.Text.Split

/-!
# The forms of declarations

A form reads modifiers and a keyword, all of them words without capitals, and then takes the name:
whatever it goes through, the name is at the first place where a word opens with a capital letter
(`Form.IsAnchored`). So it does not matter from which of the lines before it a form comes upon a
name, and what a match takes from the text hides no later declaration: a form that fits a line finds
the name of the line, wherever in the text the line stands (`Form.IsAnchored.mem_namesFrom`).
-/

namespace CodeAtlas.Index

open Text

/-! ## 1. The first capital letter that opens a word -/

/-- What there is from the first capital letter on that opens a word. Whether a word may open at
the front depends on what comes before. -/
def fromCapital? (opens : Bool) : List Char → Option (List Char)
  | [] => none
  | c :: rest => if opens && c.isUpper then some (c :: rest) else fromCapital? (isBlank c) rest

variable {c : Char} {cs rest before line after : List Char} {opens : Bool}

theorem isUpper_of_isBlank (h : isBlank c = true) : c.isUpper = false := by
  by_contra hupper
  have hrange : 'A'.val ≤ c.val ∧ c.val ≤ 'Z'.val :=
    of_decide_eq_true (Bool.not_eq_false _ ▸ hupper)
  have hlow : 65 ≤ c.toNat := UInt32.le_iff_toNat_le.1 hrange.1
  have hhigh : c.toNat ≤ 90 := UInt32.le_iff_toNat_le.1 hrange.2
  simp only [isBlank, Bool.or_eq_true, Bool.and_eq_true, decide_eq_true_eq, beq_iff_eq] at h
  omega

theorem fromCapital?_blank (h : isBlank c = true) (opens : Bool) (cs : List Char) :
    fromCapital? opens (c :: cs) = fromCapital? true cs := by
  rw [fromCapital?, isUpper_of_isBlank h, Bool.and_false, if_neg Bool.false_ne_true, h]

theorem fromCapital?_dropWhile {p : Char → Bool} (hp : ∀ c, p c = true → isBlank c = true)
    (cs : List Char) : fromCapital? true (cs.dropWhile p) = fromCapital? true cs := by
  induction cs with
  | nil => rfl
  | cons c cs ih =>
    by_cases hc : p c = true
    · rw [List.dropWhile_cons_of_pos hc, ih, fromCapital?_blank (hp c hc)]
    · rw [List.dropWhile_cons_of_neg hc]

theorem fromCapital?_indent (cs : List Char) :
    fromCapital? true (indent cs) = fromCapital? true cs := by
  refine fromCapital?_dropWhile (fun c hc => ?_) cs
  rw [Bool.or_eq_true, beq_iff_eq, beq_iff_eq] at hc
  rcases hc with rfl | rfl <;> decide

theorem isUpper_of_fromCapital? (h : fromCapital? opens cs = some (c :: rest)) :
    c.isUpper = true := by
  induction cs generalizing opens with
  | nil => cases h
  | cons d cs ih =>
    rw [fromCapital?] at h
    split at h
    · rename_i hupper
      cases h
      exact (Bool.and_eq_true_iff.1 hupper).2
    · exact ih h

/-- Past a line feed the search begins anew, unless it has come to its end before. -/
theorem fromCapital?_append_newline (h : fromCapital? opens (before ++ '\n' :: line) = some rest) :
    (∃ front, rest = front ++ '\n' :: line) ∨ fromCapital? true line = some rest := by
  induction before generalizing opens with
  | nil =>
    rw [List.nil_append, fromCapital?_blank (by decide)] at h
    exact Or.inr h
  | cons c before ih =>
    rw [List.cons_append, fromCapital?] at h
    split at h
    · cases h
      exact Or.inl ⟨c :: before, rfl⟩
    · exact ih h

/-! ## 2. Words -/

/-- A word of a form: it has no blank and no capital letter. -/
def IsKeyword (word : String) : Prop :=
  word ≠ "" ∧ ∀ c ∈ word.toList, isBlank c = false ∧ c.isUpper = false

instance (word : String) : Decidable (IsKeyword word) :=
  decidable_of_iff (word ≠ "" ∧ (word.toList.all fun c => !isBlank c && !c.isUpper) = true)
    (by simp only [IsKeyword, List.all_eq_true, Bool.and_eq_true, Bool.not_eq_true'])

/-- The keywords of the types of Java files are no modifiers. -/
theorem isKeyword_of_mem_keywords : ∀ word ∈ ["class", "interface", "enum", "record"],
    IsKeyword word ∧ word ∉ javaModifiers := by
  decide +kernel

theorem isKeyword_of_mem_javaModifiers : ∀ word ∈ javaModifiers, IsKeyword word := by
  decide +kernel

theorem isKeyword_class : IsKeyword "class" :=
  (isKeyword_of_mem_keywords "class" List.mem_cons_self).1

variable {word keyword : String} {words : List String}

theorem exists_of_blanks? (h : blanks? cs = some rest) :
    ∃ c tail, cs = c :: tail ∧ isBlank c = true ∧ rest = tail.dropWhile isBlank := by
  unfold blanks? at h
  split at h
  · rename_i c tail
    split at h
    · cases h
      exact ⟨c, tail, rfl, ‹_›, rfl⟩
    · cases h
  · cases h

/-- Where no word may open, a text without blanks is passed over. -/
theorem fromCapital?_false_append {inner : List Char} (h : ∀ c ∈ inner, isBlank c = false)
    (cs : List Char) : fromCapital? false (inner ++ cs) = fromCapital? false cs := by
  induction inner with
  | nil => rfl
  | cons c inner ih =>
    rw [List.cons_append, fromCapital?, Bool.false_and, if_neg Bool.false_ne_true,
      h c List.mem_cons_self]
    exact ih fun d hd => h d (List.mem_cons_of_mem c hd)

/-- A word is passed over. -/
theorem fromCapital?_word? (hword : IsKeyword word) (h : word? word cs = some rest) :
    fromCapital? true cs = fromCapital? true rest := by
  obtain ⟨tail, hstart, hblanks⟩ := Option.bind_eq_some_iff.1 h
  obtain ⟨b, gap, rfl, hb, rfl⟩ := exists_of_blanks? hblanks
  rw [eq_append_of_dropStart? hstart, fromCapital?_dropWhile fun c hc => hc]
  obtain ⟨hne, hchars⟩ := hword
  obtain ⟨c, inner, hinner⟩ := List.exists_cons_of_ne_nil (mt String.toList_eq_nil_iff.1 hne)
  rw [hinner] at hchars ⊢
  have hc := hchars c List.mem_cons_self
  rw [List.cons_append, fromCapital?, hc.2, Bool.and_false, if_neg Bool.false_ne_true, hc.1,
    fromCapital?_false_append fun d hd => (hchars d (List.mem_cons_of_mem c hd)).1,
    fromCapital?_blank hb]

theorem fromCapital?_oneOf? (hwords : ∀ word ∈ words, IsKeyword word)
    (h : oneOf? words cs = some rest) : fromCapital? true cs = fromCapital? true rest := by
  obtain ⟨word, hword, hrest⟩ := List.exists_of_findSome?_eq_some h
  exact fromCapital?_word? (hwords word hword) hrest

theorem fromCapital?_optional (hwords : ∀ word ∈ words, IsKeyword word) (cs : List Char) :
    fromCapital? true (optional words cs) = fromCapital? true cs := by
  induction words generalizing cs with
  | nil => rfl
  | cons word words ih =>
    have hrest := ih (fun w hw => hwords w (List.mem_cons_of_mem word hw))
      ((word? word cs).getD cs)
    have hfirst : fromCapital? true ((word? word cs).getD cs) = fromCapital? true cs := by
      cases hword : word? word cs with
      | none => rfl
      | some rest => exact (fromCapital?_word? (hwords word List.mem_cons_self) hword).symm
    exact hrest.trans hfirst

theorem fromCapital?_many (hwords : ∀ word ∈ words, IsKeyword word) (fuel : Nat)
    (cs : List Char) : fromCapital? true (many words fuel cs) = fromCapital? true cs := by
  induction fuel generalizing cs with
  | zero => rfl
  | succ fuel ih =>
    rw [many]
    split
    · rename_i rest hrest
      rw [ih, fromCapital?_oneOf? hwords hrest]
    · rfl

/-! ## 3. Names -/

/-- **A form is anchored** if the name that it finds is the one at the first capital letter that
opens a word. -/
def Form.IsAnchored (form : Form) (goesOn : Char → Bool) : Prop :=
  ∀ cs name after, form cs = some (name, after) → ∃ c rest,
    fromCapital? true cs = some (c :: rest) ∧
    name = String.ofList (c :: rest.takeWhile goesOn) ∧ after = rest.dropWhile goesOn

theorem exists_of_name? {goesOn : Char → Bool} {name : String}
    (h : name? goesOn cs = some (name, after)) : ∃ c rest,
      fromCapital? true cs = some (c :: rest) ∧
      name = String.ofList (c :: rest.takeWhile goesOn) ∧ after = rest.dropWhile goesOn := by
  unfold name? at h
  split at h
  · rename_i c rest
    split at h
    · rename_i hupper
      cases h
      exact ⟨c, rest, by rw [fromCapital?, hupper, Bool.true_and, if_pos rfl], rfl, rfl⟩
    · cases h
  · cases h

theorem isAnchored_scriptForm {modifiers : List String}
    (hwords : ∀ word ∈ modifiers, IsKeyword word) (hkeyword : IsKeyword keyword) :
    Form.IsAnchored (scriptForm modifiers keyword) isScriptNameChar := by
  intro cs name after h
  obtain ⟨rest, hword, hname⟩ := Option.bind_eq_some_iff.1 h
  rw [← fromCapital?_indent, ← fromCapital?_optional hwords, fromCapital?_word? hkeyword hword]
  exact exists_of_name? hname

theorem isAnchored_javaType : Form.IsAnchored javaType isWord := by
  intro cs name after h
  obtain ⟨rest, hword, hname⟩ := Option.bind_eq_some_iff.1 h
  rw [← fromCapital?_indent, ← fromCapital?_many isKeyword_of_mem_javaModifiers,
    fromCapital?_oneOf? (fun word hword => (isKeyword_of_mem_keywords word hword).1) hword]
  exact exists_of_name? hname

theorem isAnchored_pythonClass : Form.IsAnchored pythonClass isWord := by
  intro cs name after h
  obtain ⟨rest, hword, hname⟩ := Option.bind_eq_some_iff.1 h
  rw [fromCapital?_word? isKeyword_class hword]
  exact exists_of_name? hname

/-! ## 4. Scans -/

/-- What a scan finds, the form has found somewhere. -/
theorem exists_of_mem_namesFrom {form : Form} {name : String} {atLineStart : Bool} {skip : Nat}
    (h : name ∈ namesFrom form atLineStart skip cs) :
    ∃ text after, form text = some (name, after) := by
  induction cs generalizing atLineStart skip with
  | nil => exact absurd h List.not_mem_nil
  | cons c rest ih =>
    cases skip with
    | succ skip => exact ih h
    | zero =>
      rw [namesFrom] at h
      split at h
      · rename_i found after hfound
        rcases List.mem_cons.1 h with rfl | h
        · split at hfound
          · exact ⟨_, _, hfound⟩
          · cases hfound
        · exact ih h
      · exact ih h

namespace Form.IsAnchored

variable {form : Form} {goesOn : Char → Bool} {name other : String}

theorem ne_nil (h : form.IsAnchored goesOn) (hform : form cs = some (name, after)) : cs ≠ [] := by
  rintro rfl
  obtain ⟨c, rest, hcapital, -⟩ := h [] name after hform
  cases hcapital

/-- A match that takes the start of a line with it finds the same name as one from that line. -/
theorem name_eq (h : form.IsAnchored goesOn) (hnewline : goesOn '\n' = false)
    (hline : form line = some (name, after))
    (hform : form (before ++ '\n' :: line) = some (other, rest)) (htaken : rest.length < line.length) :
    other = name := by
  obtain ⟨c, tail, hcapital, rfl, -⟩ := h _ _ _ hline
  obtain ⟨c', tail', hfirst, rfl, rfl⟩ := h _ _ _ hform
  rcases fromCapital?_append_newline hfirst with ⟨front, hfront⟩ | hsame
  -- a name that opens before the line would go on over the line feed
  · exfalso
    cases front with
    | nil =>
      have hupper := isUpper_of_fromCapital? hfirst
      rw [(List.cons.inj hfront).1] at hupper
      exact absurd hupper (by decide)
    | cons d front =>
      have hstop : ('\n' :: line).dropWhile goesOn = '\n' :: line :=
        List.dropWhile_cons_of_neg (by rw [hnewline]; exact Bool.false_ne_true)
      have htail : tail' = front ++ '\n' :: line := (List.cons.inj hfront).2
      rw [htail, List.dropWhile_append, hstop] at htaken
      split at htaken
      · exact absurd htaken (by rw [List.length_cons]; omega)
      · exact absurd htaken (by rw [List.length_append, List.length_cons]; omega)
  · rw [hcapital] at hsame
    cases hsame
    rfl

/-- **A form that fits a line finds the name of the line**, whatever comes before. -/
theorem mem_namesFrom (h : form.IsAnchored goesOn) (hnewline : goesOn '\n' = false)
    (hline : form line = some (name, after)) {before : List Char} {atLineStart : Bool} {skip : Nat}
    (hfirst : before = [] → atLineStart = true) (hlast : ∀ c ∈ before.getLast?, c = '\n')
    (hskip : skip ≤ before.length) : name ∈ namesFrom form atLineStart skip (before ++ line) := by
  -- by what stands before the line; no match before it may have taken more than that (`hskip`)
  induction before generalizing atLineStart skip with
  | nil =>
    obtain ⟨c, rest, rfl⟩ := List.exists_cons_of_ne_nil (h.ne_nil hline)
    rw [Nat.le_zero.1 hskip, List.nil_append, namesFrom, hfirst rfl, if_pos rfl, hline]
    exact List.mem_cons_self
  | cons c before ih =>
    have hfirst' : before = [] → (c == '\n') = true := by
      rintro rfl
      exact beq_iff_eq.2 (hlast c rfl)
    have hlast' : ∀ d ∈ before.getLast?, d = '\n' := by
      intro d hd
      refine hlast d ?_
      rw [List.getLast?_cons, Option.mem_def.1 hd]
      rfl
    rw [List.cons_append]
    cases skip with
    | succ skip => exact ih hfirst' hlast' (Nat.le_of_succ_le_succ hskip)
    | zero =>
      rw [namesFrom]
      split
      · rename_i other rest hmatch
        by_cases htaken : rest.length < line.length
        -- the match has taken the start of the line with it
        · obtain ⟨front, hfront⟩ : ∃ front, c :: before = front ++ ['\n'] := by
            have hsome := List.getLast?_eq_some_getLast (List.cons_ne_nil c before)
            rw [hlast _ hsome] at hsome
            exact List.getLast?_eq_some_iff.1 hsome
          split at hmatch
          · rw [← List.cons_append, hfront, List.append_assoc] at hmatch
            rw [h.name_eq hnewline hline hmatch htaken]
            exact List.mem_cons_self
          · cases hmatch
        · refine List.mem_cons_of_mem other (ih hfirst' hlast' ?_)
          rw [List.length_append]
          omega
      · exact ih hfirst' hlast' (Nat.zero_le _)

end Form.IsAnchored

end CodeAtlas.Index
