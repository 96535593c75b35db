import CodeAtlas.Proofs.Parser.Reliable

/-!
# Registries that parse like a new one

A registry changes as it is used: factories give way to the parsers that they make. What it parses
stays the same as long as it is standard, with a parser or the standard factory for every language
whose files are read and no other entry (`IsStandard`). Such a registry is reliable, so parsing keeps
this (`IsStandard.parse`), and all standard registries parse alike (`IsStandard.outline_parse`).
-/

namespace CodeAtlas.ParserRegistry

/-- **A standard registry** has an entry for the languages whose files are read and for no other,
and its factories are standard. -/
structure IsStandard (r : ParserRegistry) : Prop where
  contains : ∀ language, r.contains language = language.isParsed
  pending : ∀ entry ∈ r.pending, entry.2 = .standard entry.1

theorem isStandard_standard : standard.IsStandard where
  contains language := by cases language <;> rfl
  pending := by
    have hpending : standard.pending
        = Language.parsed.map fun language => (language, .standard language) := rfl
    intro entry hentry
    rw [hpending] at hentry
    obtain ⟨language, -, rfl⟩ := List.mem_map.1 hentry
    rfl

variable {r : ParserRegistry} {language : Language}

/-- The factories of a standard registry make the parsers that they are asked for. -/
theorem IsStandard.isReliable (h : r.IsStandard) : r.IsReliable := by
  intro entry hentry
  have hlanguage : entry.1.isParsed = true := by
    rw [← h.contains, contains_iff]
    exact Or.inr ⟨entry, hentry, rfl⟩
  rw [h.pending entry hentry]
  exact if_pos hlanguage

/-- Whoever makes parsers from a standard registry leaves a standard registry. -/
theorem IsStandard.of_subset (h : r.IsStandard) {after : ParserRegistry}
    (hcontains : after.contains = r.contains) (hpending : after.pending ⊆ r.pending) :
    after.IsStandard where
  contains language := by rw [hcontains, h.contains]
  pending entry hentry := h.pending entry (hpending hentry)

/-- **What a standard registry parses** does not depend on the parsers that it has made, and it
stays standard. -/
theorem IsStandard.parse (h : r.IsStandard) (path : String) (root : Syntax.Node) :
    (r.parse path root).registry.IsStandard ∧
      (r.parse path root).outline = Outline.ofLanguages Language.isParsed path root := by
  obtain ⟨hcontains, hpending, houtline⟩ := h.isReliable.parse path root
  rw [houtline, funext h.contains]
  exact ⟨h.of_subset hcontains hpending, rfl⟩

/-- **All standard registries parse alike.** -/
theorem IsStandard.outline_parse (h : r.IsStandard) (path : String) (root : Syntax.Node) :
    (r.parse path root).outline = Outline.ofFile path root := by
  rw [Outline.ofFile, (h.parse path root).2, (isStandard_standard.parse path root).2]

end CodeAtlas.ParserRegistry

namespace CodeAtlas

/-- The outline of a file is that of its tree in its language. -/
theorem Outline.eq_ofSoundTree {path : String} {root : Syntax.Node} {language : Language}
    {o : Outline} (hlanguage : Language.ofFile path = .ok (some language))
    (h : Outline.ofFile path root = .ok o) :
    o = ofSoundTree language path root := by
  rw [Outline.ofFile, (ParserRegistry.isStandard_standard.parse path root).2, ofLanguages,
    hlanguage] at h
  dsimp only at h
  split at h
  · unfold ofTree at h
    split at h
    · cases h
    · exact (Except.ok.inj h).symm
  · cases h

end CodeAtlas
