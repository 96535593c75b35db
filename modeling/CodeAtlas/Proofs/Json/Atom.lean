import CodeAtlas.Proofs.Json.Number
import CodeAtlas.Proofs.Json.String

/-!
# Reading atoms

What holds no other value is told by its first character, and what can follow a value never goes on
with one. So an atom is read exactly as it is spelt (`spellsAtom_of_readAtom`, `readAtom_append`),
and it fails at a limit only as a number does (`meets_of_readAtom`).
-/

namespace CodeAtlas.Json

variable {cs rest seg : List Char} {c : Char} {room : Nat} {v : Json} {fault : Fault}

/-! ## 1. First characters -/

/-- What a value can start with: no blank, no comma and no closing bracket. -/
def IsStart (c : Char) : Prop :=
  ¬ (c = ' ' ∨ c = '\t' ∨ c = '\n' ∨ c = '\r') ∧ c ≠ ',' ∧ c ≠ ']' ∧ c ≠ '\x7d'

instance (c : Char) : Decidable (IsStart c) :=
  inferInstanceAs (Decidable (_ ∧ _))

/-- A text that starts so. -/
def IsHeaded (cs : List Char) : Prop :=
  ∃ c more, cs = c :: more ∧ IsStart c

/-- What can follow a value. -/
def Ends (cs : List Char) : Prop :=
  ∀ c rest, cs = c :: rest → ¬ IsStart c

theorem IsStart.not_isBlank (h : IsStart c) : ¬ IsBlank [c] :=
  mt isBlank_singleton.1 h.1

theorem isStart_of_isDigit (h : c.isDigit = true) : IsStart c := by
  refine ⟨fun hblank => ?_, ?_, ?_, ?_⟩
  · revert h
    rcases hblank with rfl | rfl | rfl | rfl <;> decide
  all_goals
    rintro rfl
    exact absurd h (by decide)

theorem ne_bracket_of_isDigit (h : c.isDigit = true) : c ≠ '[' ∧ c ≠ '\x7b' := by
  constructor
  all_goals
    rintro rfl
    exact absurd h (by decide)

theorem Ends.not_continues (h : Ends rest) : ¬ Continues rest := by
  rintro (hd | hd | ⟨hx, hne⟩)
  · exact h _ _ rfl (isStart_of_isDigit hd)
  · exact h _ _ rfl (by decide)
  · have hmark : ∀ {e : Char}, e = 'e' ∨ e = 'E' → IsStart e := by
      rintro e (rfl | rfl) <;> decide
    cases hx with
    | none => exact hne rfl
    | bare he => exact h _ _ rfl (hmark he)
    | plus he => exact h _ _ rfl (hmark he)
    | minus he => exact h _ _ rfl (hmark he)

theorem ends_of_isBlank (h : IsBlank cs) : Ends cs := by
  rintro c rest rfl hstart
  exact hstart.1 (h c List.mem_cons_self)

theorem ends_cons (h : ¬ IsStart c) (cs : List Char) : Ends (c :: cs) := by
  rintro d rest heq
  rwa [← (List.cons.inj heq).1]

theorem ends_append {bs : List Char} (h : IsBlank bs) (hcs : Ends cs) : Ends (bs ++ cs) := by
  cases bs with
  | nil => exact hcs
  | cons b bs =>
    exact ends_cons (fun hstart => hstart.1 (h b List.mem_cons_self)) _

/-! ## 2. Atoms -/

theorem IsWhole.head {ds : List Char} (h : IsWhole ds) :
    ∃ d more, ds = d :: more ∧ d.isDigit = true := by
  cases ds with
  | nil => exact absurd rfl h.1.1
  | cons d ds => exact ⟨d, ds, rfl, h.1.2 d List.mem_cons_self⟩

theorem SpellsNumber.head {negative : Bool} (h : SpellsNumber negative seg v) :
    ∃ d more, seg = d :: more ∧ d.isDigit = true := by
  cases h with
  | int hds => exact hds.head
  | float hds =>
    obtain ⟨d, more, rfl, hd⟩ := hds.head
    exact ⟨d, _, rfl, hd⟩

theorem readAtom_of_digit (h : c.isDigit = true) (cs : List Char) :
    readAtom (c :: cs) = readNumber false (c :: cs) := by
  unfold readAtom
  split
  all_goals first
    | rfl
    | (rename_i heq
       rw [(List.cons.inj heq).1] at h
       exact absurd h (by decide))

theorem readAtom_negative (h : c.isDigit = true) (cs : List Char) :
    readAtom ('-' :: c :: cs) = readNumber true (c :: cs) := by
  have hc : c ≠ 'I' := by
    rintro rfl
    exact absurd h (by decide)
  rw [readAtom]
  rintro rest heq
  exact hc (List.cons.inj heq).1

theorem SpellsAtom.head (h : SpellsAtom seg v) : ∃ c more, seg = c :: more ∧ IsStart c ∧
    c ≠ '[' ∧ c ≠ '\x7b' := by
  cases h with
  | str h =>
    obtain ⟨body, rfl, -⟩ := h
    exact ⟨_, _, rfl, by decide⟩
  | number h =>
    obtain ⟨d, more, rfl, hd⟩ := h.head
    exact ⟨d, more, rfl, isStart_of_isDigit hd, ne_bracket_of_isDigit hd⟩
  | _ => exact ⟨_, _, rfl, by decide⟩

/-- **What is read of an atom is spelt.** -/
theorem spellsAtom_of_readAtom (h : readAtom cs = .ok (v, rest)) :
    ∃ seg, cs = seg ++ rest ∧ SpellsAtom seg v := by
  unfold readAtom at h
  split at h
  · split at h
    · rename_i text more htext
      cases h
      obtain ⟨body, rfl, hbody⟩ := spellsText_of_stringText? htext
      exact ⟨'"' :: body ++ ['"'], by simp, .str ⟨body, rfl, hbody⟩⟩
    · cases h
  · cases h
    exact ⟨_, rfl, .null⟩
  · cases h
    exact ⟨_, rfl, .yes⟩
  · cases h
    exact ⟨_, rfl, .no⟩
  · cases h
    exact ⟨_, rfl, .nan⟩
  · cases h
    exact ⟨_, rfl, .infinity⟩
  · cases h
    exact ⟨_, rfl, .negInfinity⟩
  · obtain ⟨seg, rfl, hseg⟩ := spellsNumber_of_readNumber h
    exact ⟨'-' :: seg, rfl, .negative hseg⟩
  · obtain ⟨seg, rfl, hseg⟩ := spellsNumber_of_readNumber h
    exact ⟨seg, rfl, .number hseg⟩

/-- **What is spelt as an atom is read.** -/
theorem readAtom_append (h : SpellsAtom seg v) (hrest : Ends rest) :
    readAtom (seg ++ rest) = .ok (v, rest) := by
  cases h with
  | str h =>
    obtain ⟨body, rfl, hbody⟩ := h
    rw [List.append_assoc, List.cons_append, readAtom, List.singleton_append,
      stringText?_append hbody]
  | number h =>
    obtain ⟨d, more, rfl, hd⟩ := h.head
    rw [List.cons_append, readAtom_of_digit hd, ← List.cons_append,
      readNumber_append h hrest.not_continues]
  | negative h =>
    obtain ⟨d, more, rfl, hd⟩ := h.head
    rw [List.cons_append, List.cons_append, readAtom_negative hd, ← List.cons_append,
      readNumber_append h hrest.not_continues]
  | _ => rfl

/-- **An atom fails at a limit** only if it is a number. -/
theorem meets_of_readAtom (h : readAtom cs = .error fault) (hfault : fault ≠ .malformed) :
    Meets room cs fault := by
  unfold readAtom at h
  split at h
  · split at h
    · cases h
    · cases h
      exact absurd rfl hfault
  case h_8 =>
    obtain ⟨ds, rest, rfl, hds, hlimit, hrest, rfl⟩ := exists_of_readNumber_error h hfault
    exact .negative hds hlimit hrest
  case h_9 =>
    obtain ⟨ds, rest, rfl, hds, hlimit, hrest, rfl⟩ := exists_of_readNumber_error h hfault
    exact .number hds hlimit hrest
  all_goals cases h

end CodeAtlas.Json
