import CodeAtlas.Parser.Parsing
import CodeAtlas.Proofs.Outline.Assembly

/-!
# Classes know their file

Every class in the outline of a file has the path of the file: each declaration gives it to the
class that it adds (`Declared.Assembled`), and nothing else adds one.
-/

namespace CodeAtlas

/-! ## 1. What declarations add -/

namespace Declared

theorem classes_foldl (ds : List Declared) (d : Declared) :
    (ds.foldl append d).classes = d.classes ++ ds.flatMap (·.classes) := by
  induction ds generalizing d with
  | nil => exact (List.append_nil _).symm
  | cons e ds ih =>
    rw [List.foldl_cons, ih, List.flatMap_cons, ← List.append_assoc]
    rfl

@[simp] theorem classes_concat (ds : List Declared) :
    (concat ds).classes = ds.flatMap (·.classes) :=
  classes_foldl ds {}

/-- Every class that is declared has the path of the file. -/
theorem Assembled.path_of_mem {d : Declared} {path : String} (h : d.Assembled path) :
    ∀ c ∈ d.classes, c.path = path := by
  induction h with
  | nothing hclasses =>
    intro c hc
    rw [hclasses] at hc
    exact absurd hc List.not_mem_nil
  | ofClass hclasses _ _ hpath | ofInterface hclasses _ _ hpath =>
    intro c hc
    rw [hclasses, List.mem_singleton] at hc
    rw [hc, hpath]
  | append _ _ iha ihb =>
    intro c hc
    exact (List.mem_append.1 hc).elim (iha c) (ihb c)

end Declared

namespace Outline

open Syntax

/-! ## 2. Whole files -/

theorem path_of_mem_ofSoundTree {language : Language} {path : String} {root : Node}
    {c : ClassDecl} (h : c ∈ (ofSoundTree language path root).classes) : c.path = path := by
  obtain ⟨d, hd, hclasses, -⟩ := exists_assembled language path root
  exact hd.path_of_mem c (hclasses ▸ h)

/-- The outline of a file is that of its tree in some language. -/
theorem exists_eq_ofSoundTree {path : String} {root : Node} {o : Outline}
    (h : Outline.ofFile path root = .ok o) : ∃ language, o = ofSoundTree language path root := by
  unfold Outline.ofFile ParserRegistry.parse at h
  split at h
  · cases h
  · cases h
  · split at h
    · cases h
    · cases h
    · split at h
      · cases h
      · rename_i outline hparse
        cases h
        unfold ofTree at hparse
        split at hparse
        · cases hparse
        · cases hparse
          exact ⟨_, rfl⟩

/-- **The outline of a file has the path of the file.** -/
theorem path_of_ofFile {path : String} {root : Node} {o : Outline}
    (h : Outline.ofFile path root = .ok o) : o.path = path := by
  obtain ⟨language, rfl⟩ := exists_eq_ofSoundTree h
  cases language <;> rfl

/-- **A class in the outline of a file has the path of the file.** -/
theorem path_of_mem_classes {path : String} {root : Node} {o : Outline} {c : ClassDecl}
    (h : Outline.ofFile path root = .ok o) (hc : c ∈ o.classes) : c.path = path := by
  obtain ⟨language, rfl⟩ := exists_eq_ofSoundTree h
  exact path_of_mem_ofSoundTree hc

end Outline

end CodeAtlas
