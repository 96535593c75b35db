import CodeAtlas.Parser.Parsing
import Mathlib.Data.List.Basic

/-!
# Entries of a registry

What asking for a parser comes to (`Fetched`), for a registry with any entries: a parser that is
ready is given again, a factory is called, and without an entry there is no parser. Nothing is
assumed of the entries here, so a language may have several; the first one counts.
-/

namespace CodeAtlas.ParserRegistry

variable {r : ParserRegistry} {language other : Language} {parser : Parser}
  {factory : ParserFactory}

/-! ## 1. Lookups -/

theorem contains_iff :
    r.contains language = true ↔
      (∃ parser ∈ r.ready, parser.language = language) ∨
        ∃ entry ∈ r.pending, entry.1 = language := by
  simp only [contains, ready?, factory?, Option.isSome_map, Bool.or_eq_true, List.find?_isSome,
    beq_iff_eq]

theorem contains_eq_false_iff :
    r.contains language = false ↔ r.ready? language = none ∧ r.factory? language = none := by
  simp only [contains, Bool.or_eq_false_iff, Option.isSome_eq_false_iff,
    Option.isNone_iff_eq_none]

theorem language_of_ready? (h : r.ready? language = some parser) : parser.language = language := by
  have hfound := List.find?_some (p := fun parser : Parser => parser.language == language) h
  exact eq_of_beq hfound

theorem mem_ready_of_ready? (h : r.ready? language = some parser) : parser ∈ r.ready :=
  List.mem_of_find?_eq_some h

theorem mem_pending_of_factory? (h : r.factory? language = some factory) :
    (language, factory) ∈ r.pending := by
  obtain ⟨entry, hentry, rfl⟩ := Option.map_eq_some_iff.1 h
  have hfound := List.find?_some (p := fun entry : Language × ParserFactory =>
    entry.1 == language) hentry
  rw [← eq_of_beq hfound]
  exact List.mem_of_find?_eq_some hentry

theorem contains_of_factory? (h : r.factory? language = some factory) :
    r.contains language = true := by
  rw [contains, h]
  exact Bool.or_true _

/-- The languages listed are those with an entry. -/
theorem mem_languages : language ∈ r.languages ↔ r.contains language = true := by
  rw [contains_iff, languages, List.mem_append, List.mem_filter, List.mem_map, List.mem_map]
  constructor
  · rintro (hready | ⟨hpending, -⟩)
    · exact Or.inl hready
    · exact Or.inr hpending
  -- a factory whose language has a parser is listed with that parser
  · intro h
    by_cases hready : ∃ parser ∈ r.ready, parser.language = language
    · exact Or.inl hready
    · refine Or.inr ⟨h.resolve_left hready, ?_⟩
      rw [Bool.not_eq_true', Bool.eq_false_iff, Ne, List.contains_iff_mem, List.mem_map]
      exact hready

/-! ## 2. Calls of a factory -/

/-- The registry in which a factory has been called, to no effect. -/
def withCall (r : ParserRegistry) (language : Language) (factory : ParserFactory) :
    ParserRegistry :=
  { r with calls := r.calls ++ [(language, factory)] }

/-- The registry in which a new parser has taken the place of a factory. -/
def withParser (r : ParserRegistry) (language : Language) (factory : ParserFactory) :
    ParserRegistry :=
  { r with
    ready := r.ready ++ [⟨language, r.made⟩]
    pending := r.pending.filter (·.1 != language)
    made := r.made + 1
    calls := r.calls ++ [(language, factory)] }

/-- The other languages keep their entries, and this one has one now. -/
theorem contains_withParser :
    (r.withParser language factory).contains other = true ↔
      r.contains other = true ∨ language = other := by
  simp only [contains_iff, withParser, List.mem_append, List.mem_singleton, List.mem_filter,
    bne_iff_ne]
  constructor
  · rintro (⟨parser, hparser | rfl, rfl⟩ | ⟨entry, ⟨hentry, -⟩, rfl⟩)
    · exact Or.inl (Or.inl ⟨parser, hparser, rfl⟩)
    · exact Or.inr rfl
    · exact Or.inl (Or.inr ⟨entry, hentry, rfl⟩)
  · intro h
    by_cases hother : language = other
    · exact Or.inl ⟨⟨language, r.made⟩, Or.inr rfl, hother⟩
    -- the entry of another language is not the one that has been taken away
    · rcases h.resolve_right hother with ⟨parser, hparser, rfl⟩ | ⟨entry, hentry, rfl⟩
      · exact Or.inl ⟨parser, Or.inl hparser, rfl⟩
      · exact Or.inr ⟨entry, ⟨hentry, Ne.symm hother⟩, rfl⟩

/-- A call makes a parser of the language, or fails and changes nothing else. -/
theorem materialize_cases (r : ParserRegistry) (language : Language) (factory : ParserFactory) :
    (factory.product = .ok language ∧
        r.materialize language factory
          = (r.withParser language factory, .ok ⟨language, r.made⟩)) ∨
      (factory.product ≠ .ok language ∧
        ∃ e, r.materialize language factory = (r.withCall language factory, .error e)) := by
  cases hproduct : factory.product with
  | error e =>
    refine Or.inr ⟨nofun, e, ?_⟩
    rw [materialize, hproduct]
    rfl
  | ok actual =>
    by_cases hactual : actual = language
    · subst hactual
      refine Or.inl ⟨rfl, ?_⟩
      rw [materialize, hproduct]
      simp only [beq_self_eq_true, if_true]
      rfl
    · refine Or.inr ⟨fun h => hactual (Except.ok.inj h), .parserMismatch language actual, ?_⟩
      have hne : (actual == language) = false := beq_eq_false_iff_ne.2 hactual
      rw [materialize, hproduct]
      simp only [hne, Bool.false_eq_true, if_false]
      rfl

/-! ## 3. Asking for a parser -/

/-- **What asking for the parser of a language comes to.** -/
inductive Fetched (r : ParserRegistry) (language : Language) :
    ParserRegistry × Except Failure (Option Parser) → Prop where
  /-- The language has no entry. -/
  | missing (hcontains : r.contains language = false) : Fetched r language (r, .ok none)
  /-- Its parser is ready. -/
  | ready {parser : Parser} (hready : r.ready? language = some parser) :
    Fetched r language (r, .ok (some parser))
  /-- Its factory makes the parser now. -/
  | made {factory : ParserFactory} (hready : r.ready? language = none)
    (hfactory : r.factory? language = some factory) (hproduct : factory.product = .ok language) :
    Fetched r language (r.withParser language factory, .ok (some ⟨language, r.made⟩))
  /-- Its factory fails, or makes a parser for another language. -/
  | failed {factory : ParserFactory} {e : Failure} (hready : r.ready? language = none)
    (hfactory : r.factory? language = some factory) (hproduct : factory.product ≠ .ok language) :
    Fetched r language (r.withCall language factory, .error e)

theorem get_of_ready (h : r.ready? language = some parser) :
    r.get language = (r, .ok (some parser)) := by
  rw [get, h]

theorem get_of_contains (h : r.contains language = false) : r.get language = (r, .ok none) := by
  obtain ⟨hready, hfactory⟩ := contains_eq_false_iff.1 h
  rw [get, hready, hfactory]

theorem get_of_factory (hready : r.ready? language = none)
    (hfactory : r.factory? language = some factory) :
    r.get language
      = ((r.materialize language factory).1, (r.materialize language factory).2.map some) := by
  rw [get, hready, hfactory]

theorem fetched_get (r : ParserRegistry) (language : Language) :
    Fetched r language (r.get language) := by
  cases hready : r.ready? language with
  | some parser =>
    rw [get_of_ready hready]
    exact .ready hready
  | none =>
    cases hfactory : r.factory? language with
    | none =>
      have hcontains := contains_eq_false_iff.2 ⟨hready, hfactory⟩
      rw [get_of_contains hcontains]
      exact .missing hcontains
    | some factory =>
      rw [get_of_factory hready hfactory]
      rcases r.materialize_cases language factory with ⟨hproduct, h⟩ | ⟨hproduct, e, h⟩
      · rw [h]
        exact .made hready hfactory hproduct
      · rw [h]
        exact .failed hready hfactory hproduct

end CodeAtlas.ParserRegistry
