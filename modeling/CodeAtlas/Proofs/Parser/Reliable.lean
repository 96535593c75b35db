import CodeAtlas.Proofs.Parser.Entry

/-!
# Registries whose factories keep their word

As long as every factory makes a parser of its language (`IsReliable`), a registry is as good as the
set of its languages: each of them has a parser for whoever asks (`IsReliable.exists_get`), and what
a file is parsed to depends on that set alone (`IsReliable.parse`). Nothing is said of the order in
which parsers are made.
-/

namespace CodeAtlas

/-- The outline of a file where some languages have a parser, given its path and tree. -/
def Outline.ofLanguages (known : Language → Bool) (path : String) (root : Syntax.Node) :
    Except Failure Outline :=
  match Language.ofFile path with
  | .error e => .error e
  | .ok none => .error (.unsupportedFile path)
  | .ok (some language) =>
    if known language then Outline.ofTree language path root
    else .error (.noParser language path)

namespace ParserRegistry

variable {r : ParserRegistry} {language other : Language} {factory : ParserFactory}

/-- **A reliable registry** has no factory that fails or makes a parser for another language. -/
def IsReliable (r : ParserRegistry) : Prop :=
  ∀ entry ∈ r.pending, entry.2.product = .ok entry.1

/-- Fewer factories are no less reliable. -/
theorem IsReliable.of_subset (h : r.IsReliable) {after : ParserRegistry}
    (hpending : after.pending ⊆ r.pending) : after.IsReliable :=
  fun entry hentry => h entry (hpending hentry)

theorem contains_withParser_of_factory? (hfactory : r.factory? language = some factory) :
    (r.withParser language factory).contains = r.contains := by
  funext other
  rw [Bool.eq_iff_iff, contains_withParser, or_iff_left_iff_imp]
  rintro rfl
  exact contains_of_factory? hfactory

/-- **A reliable registry has a parser for each of its languages**, and has the same languages once
it was asked for it. -/
theorem IsReliable.exists_get (h : r.IsReliable) (hcontains : r.contains language = true) :
    ∃ after serial, r.get language = (after, .ok (some ⟨language, serial⟩)) ∧
      after.contains = r.contains ∧ after.pending ⊆ r.pending := by
  have hfetched := r.fetched_get language
  generalize r.get language = fetched at hfetched
  cases hfetched with
  | missing hmissing => exact absurd hcontains (Bool.eq_false_iff.1 hmissing)
  | @ready parser hready =>
    refine ⟨r, parser.serial, ?_, rfl, List.Subset.refl _⟩
    rw [← language_of_ready? hready]
  | @made factory _ hfactory _ =>
    refine ⟨r.withParser language factory, r.made, rfl, ?_, List.filter_sublist.subset⟩
    exact contains_withParser_of_factory? hfactory
  -- a factory that fails has no place in a reliable registry
  | failed _ hfactory hproduct =>
    exact absurd (h _ (mem_pending_of_factory? hfactory)) hproduct

/-- **What a reliable registry parses** is decided by its languages, which stay the same. -/
theorem IsReliable.parse (h : r.IsReliable) (path : String) (root : Syntax.Node) :
    (r.parse path root).registry.contains = r.contains ∧
      (r.parse path root).registry.pending ⊆ r.pending ∧
      (r.parse path root).outline = Outline.ofLanguages r.contains path root := by
  unfold ParserRegistry.parse Outline.ofLanguages
  cases Language.ofFile path with
  | error e => exact ⟨rfl, List.Subset.refl _, rfl⟩
  | ok found =>
    cases found with
    | none => exact ⟨rfl, List.Subset.refl _, rfl⟩
    | some language =>
      dsimp only
      by_cases hcontains : r.contains language = true
      · obtain ⟨after, serial, hget, hafter, hpending⟩ := h.exists_get hcontains
        rw [hget, if_pos hcontains]
        dsimp only
        cases Outline.ofTree language path root with
        | error e => exact ⟨hafter, hpending, rfl⟩
        | ok outline => exact ⟨hafter, hpending, rfl⟩
      · rw [get_of_contains (Bool.eq_false_iff.2 hcontains), if_neg hcontains]
        exact ⟨rfl, List.Subset.refl _, rfl⟩

end ParserRegistry

end CodeAtlas
