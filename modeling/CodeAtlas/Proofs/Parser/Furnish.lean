import CodeAtlas.Parser.History
import CodeAtlas.Proofs.Parser.Entry
import Mathlib.Data.List.Find
import Mathlib.Data.List.TakeWhile

/-!
# Furnishing a registry

The standard factories are added one by one, and the first language that has an entry already ends it
(`furnishWith_eq`). Each addition is all or nothing, but the whole is not: what was added before stays,
as nothing takes it back (`not_allOrNothing_furnish`). How far it gets is decided by the entries that the registry
had (`vacant`), and `furnishes` says what of it can be seen. Nothing is assumed of the registry, so this
holds after every history.
-/

namespace CodeAtlas.ParserRegistry

variable {r : ParserRegistry} {language other : Language} {languages : List Language}

/-! ## 1. Standard factories that wait -/

/-- The registry with standard factories for more languages. -/
def awaiting (r : ParserRegistry) (languages : List Language) : ParserRegistry :=
  { r with pending := r.pending ++ languages.map fun language => (language, .standard language) }

theorem awaiting_nil (r : ParserRegistry) : r.awaiting [] = r := by
  rw [awaiting, List.map_nil, List.append_nil]

theorem awaiting_awaiting (r : ParserRegistry) (languages more : List Language) :
    (r.awaiting languages).awaiting more = r.awaiting (languages ++ more) := by
  rw [awaiting, awaiting, awaiting, List.map_append, List.append_assoc]

theorem map_pending_awaiting (r : ParserRegistry) (languages : List Language) :
    (r.awaiting languages).pending.map (·.1) = r.pending.map (·.1) ++ languages := by
  rw [awaiting, List.map_append, List.map_map]
  exact congrArg _ (List.map_id languages)

theorem contains_awaiting (r : ParserRegistry) (languages : List Language) (other : Language) :
    (r.awaiting languages).contains other = (r.contains other || languages.contains other) := by
  have hpending : ∀ r : ParserRegistry,
      (∃ entry ∈ r.pending, entry.1 = other) ↔ other ∈ r.pending.map (·.1) :=
    fun _ => List.mem_map.symm
  rw [Bool.eq_iff_iff, Bool.or_eq_true, contains_iff, contains_iff, List.contains_iff_mem, hpending,
    hpending, map_pending_awaiting, List.mem_append, or_assoc]
  exact Iff.rfl

/-- Languages without an entry are listed behind the others. -/
theorem languages_awaiting (hnew : ∀ language ∈ languages, r.contains language = false) :
    (r.awaiting languages).languages = r.languages ++ languages := by
  have hnotReady : languages.filter (!(r.ready.map (·.language)).contains ·) = languages := by
    rw [List.filter_eq_self]
    intro language hmem
    have hnone := hnew language hmem
    rw [← Bool.not_eq_true, contains_iff, not_or] at hnone
    rw [Bool.not_eq_true', ← Bool.not_eq_true, List.contains_iff_mem, List.mem_map]
    exact hnone.1
  have hready : (r.awaiting languages).ready = r.ready := rfl
  rw [ParserRegistry.languages, map_pending_awaiting, hready, List.filter_append, hnotReady,
    ← List.append_assoc]
  rfl

/-! ## 2. One language after the other -/

theorem takeWhile_congr {α : Type} {p q : α → Bool} {l : List α} (h : ∀ a ∈ l, p a = q a) :
    l.takeWhile p = l.takeWhile q := by
  induction l with
  | nil => rfl
  | cons a l ih =>
    obtain ⟨ha, hl⟩ := List.forall_mem_cons.1 h
    rw [List.takeWhile_cons, List.takeWhile_cons, ha, ih hl]

/-- The answer for some languages: a fault at the first that has an entry. -/
def vacancy (r : ParserRegistry) (languages : List Language) : Except Failure Unit :=
  match languages.find? r.contains with
  | none => .ok ()
  | some language => .error (.alreadyRegistered language)

/-- **Factories are added up to the first language with an entry**, and stay. -/
theorem furnishWith_eq (hnodup : languages.Nodup) :
    r.furnishWith languages
      = (r.awaiting (languages.takeWhile fun language => !r.contains language),
          r.vacancy languages) := by
  induction languages generalizing r with
  | nil =>
    rw [List.takeWhile_nil, awaiting_nil]
    rfl
  | cons language rest ih =>
    obtain ⟨hnotMem, hrest⟩ := List.nodup_cons.1 hnodup
    rw [furnishWith, registerLazy]
    cases hcontains : r.contains language with
    | true =>
      rw [if_pos rfl, List.takeWhile_cons_of_neg (by simp [hcontains]), awaiting_nil, vacancy,
        List.find?_cons_of_pos hcontains]
    | false =>
      -- the new entry is for none of the languages that are to come
      have hsame : ∀ other ∈ rest, (r.awaiting [language]).contains other = r.contains other := by
        intro other hother
        have hne : other ≠ language := fun heq => hnotMem (heq ▸ hother)
        rw [contains_awaiting, List.contains_cons, List.contains_nil, beq_eq_false_iff_ne.2 hne,
          Bool.or_false, Bool.or_false]
      have hnot : ¬ r.contains language = true := by rw [hcontains]; exact Bool.false_ne_true
      rw [if_neg Bool.false_ne_true, List.takeWhile_cons_of_pos (by simp [hcontains]), vacancy,
        List.find?_cons_of_neg hnot]
      change (r.awaiting [language]).furnishWith rest = _
      rw [ih hrest, awaiting_awaiting, vacancy, List.find?_congr hsame,
        takeWhile_congr fun other hother => congrArg (!·) (hsame other hother)]
      rfl

/-! ## 3. All of them -/

/-- **The standard languages that are still free**, up to the first that has an entry. -/
def vacant (r : ParserRegistry) : List Language :=
  Language.parsed.takeWhile fun language => !r.contains language

theorem contains_of_mem_vacant (h : language ∈ r.vacant) : r.contains language = false := by
  have hfree := List.mem_takeWhile_imp h
  rwa [Bool.not_eq_true'] at hfree

theorem furnish_eq (r : ParserRegistry) :
    r.furnish = (r.awaiting r.vacant, r.vacancy Language.parsed) :=
  furnishWith_eq (by decide)

theorem vacant_eq_nil_iff : r.vacant = [] ↔ r.contains .typescript = true := by
  rw [vacant, Language.parsed, List.takeWhile_cons]
  cases r.contains .typescript <;> simp

theorem vacant_eq_parsed (h : ∀ language ∈ Language.parsed, r.contains language = false) :
    r.vacant = Language.parsed := by
  rw [vacant, List.takeWhile_eq_self_iff]
  intro language hmem
  rw [h language hmem]
  rfl

/-- **What furnishing a registry comes to.** -/
structure Furnishes (r : ParserRegistry) : Prop where
  /-- It fails for the first standard language that has an entry, and only if there is one. -/
  answer : r.furnish.2 = match Language.parsed.find? r.contains with
    | none => .ok ()
    | some language => .error (.alreadyRegistered language)
  /-- The languages before that one have an entry now, and the others are as they were. -/
  contains : ∀ language,
    r.furnish.1.contains language = (r.contains language || r.vacant.contains language)
  languages : r.furnish.1.languages = r.languages ++ r.vacant
  /-- If none had an entry, all have one now. -/
  all : (∀ language ∈ Language.parsed, r.contains language = false) →
    r.furnish.2 = .ok () ∧ (∀ language ∈ Language.parsed, r.furnish.1.contains language = true) ∧
      r.furnish.1.languages = r.languages ++ Language.parsed
  /-- Nothing changes just if the first of them had one. -/
  nothing : (r.furnish.1.contains = r.contains ∧ r.furnish.1.languages = r.languages) ↔
    r.contains .typescript = true
  /-- The entries that were there stay, no parser is made and no factory called. -/
  registry : r.furnish.1 = { r with
    pending := r.pending ++ r.vacant.map fun language => (language, .standard language) }

/-- **A registry is furnished up to the first standard language that it has.** -/
theorem furnishes (r : ParserRegistry) : r.Furnishes where
  answer := by rw [furnish_eq, vacancy]
  contains := by
    rw [furnish_eq]
    exact r.contains_awaiting r.vacant
  languages := by
    rw [furnish_eq]
    exact languages_awaiting fun _ => contains_of_mem_vacant
  all h := by
    have hnone : Language.parsed.find? r.contains = none :=
      List.find?_eq_none.2 fun language hmem => by rw [h language hmem]; exact Bool.false_ne_true
    rw [furnish_eq, vacant_eq_parsed h, vacancy, hnone]
    refine ⟨rfl, fun language hmem => ?_, languages_awaiting h⟩
    rw [contains_awaiting, List.contains_iff_mem.2 hmem, Bool.or_true]
  nothing := by
    rw [← vacant_eq_nil_iff, furnish_eq, languages_awaiting fun _ => contains_of_mem_vacant]
    constructor
    · rintro ⟨-, hlanguages⟩
      exact List.append_right_eq_self.1 hlanguages
    · intro hvacant
      rw [hvacant, awaiting_nil, List.append_nil]
      exact ⟨rfl, rfl⟩
  registry := by rw [furnish_eq, awaiting]

/-- **Furnishing is not all or nothing**: where only the third language has an entry, the first two are
added before it fails. -/
theorem not_allOrNothing_furnish :
    ¬ ∀ actions : List Action,
      let r := ({} : ParserRegistry).after actions
      (r.furnish.2 = .ok () ∧ ∀ language ∈ Language.parsed, r.furnish.1.contains language = true) ∨
        ((∃ language, r.furnish.2 = .error (.alreadyRegistered language)) ∧
          r.furnish.1.contains = r.contains ∧ r.furnish.1.languages = r.languages) := by
  intro h
  rcases h [.registerLazy .java (.standard .java)] with ⟨hanswer, -⟩ | ⟨-, -, hlanguages⟩
  · cases hanswer
  · exact absurd hlanguages (by decide)

end CodeAtlas.ParserRegistry
