import CodeAtlas.Proofs.Sequence.Participants
import CodeAtlas.Sequence.Analyzer

/-!
# Analyzers without memory

An analyzer fills its tables anew for every file. Whatever it has found out before, it draws the
diagram of a file as a new one does (`SequenceAnalyzer.report_analyze`), and is left as a new one
would be (`SequenceAnalyzer.run_eq`). All that it draws carries the path of the file
(`SequenceReport.isAt_ofOutline`).
-/

namespace CodeAtlas

open Syntax

/-! ## 1. Passes from empty tables -/

theorem KnownNames.append_empty (o : Outline) :
    (⟨[], [], []⟩ : KnownNames).append (ofOutline o) = ofOutline o := rfl

theorem TypeTable.addOutline_empty (o : Outline) : empty.addOutline o = ofOutline o := rfl

/-- The module stands in for a file without declarations. -/
theorem Diagram.declare_empty (o : Outline) :
    Diagram.declare { path := o.path, participants := [], interactions := [] } (.ofOutline o) o
      = ofOutline o := by
  have hempty : ((KnownNames.ofOutline o).classMethods.isEmpty
      && (KnownNames.ofOutline o).functions.isEmpty)
      = (o.classes.isEmpty && o.interfaces.isEmpty && o.functions.isEmpty) := by
    unfold KnownNames.ofOutline
    cases o.classes <;> cases o.interfaces <;> cases o.functions <;> rfl
  rw [declare, hempty]
  rfl

namespace SequenceAnalyzer

/-- **What is left of earlier files is nothing.** -/
theorem run_eq (a b : SequenceAnalyzer) (o : Outline) : a.run o = b.run o := rfl

/-- Before any call is looked at, the tables hold the declarations of the file alone. -/
theorem declared_eq (a : SequenceAnalyzer) (o : Outline) :
    ((a.reset o).collectDeclarations o).trackDeclaredTypes o
      = { known := .ofOutline o, diagram := .ofOutline o, table := .ofOutline o, scopes := []
          calls := CallSyntax.ofLanguage? o.language } := by
  rw [collectDeclarations, reset, KnownNames.append_empty, Diagram.declare_empty,
    trackDeclaredTypes, TypeTable.addOutline_empty]

/-- **An analyzer draws a file as it is**, whatever it has drawn before. -/
theorem report_analyze (a : SequenceAnalyzer) (o : Outline) :
    (a.analyze o).2 = SequenceReport.ofOutline o := by
  unfold analyze run SequenceReport.ofOutline
  rw [declared_eq]
  dsimp only
  cases o.tree with
  | none => rfl
  | some root => cases CallSyntax.ofLanguage? o.language <;> rfl

end SequenceAnalyzer

/-! ## 2. Paths -/

/-- **All that a diagram shows carries a path.** -/
structure Diagram.IsAt (d : Diagram) (path : String) : Prop where
  own : d.path = path
  participants : ∀ p ∈ d.participants, p.path = path
  interactions : ∀ i ∈ d.interactions, i.path = path

namespace Diagram.IsAt

variable {d : Diagram} {path : String}

theorem add (h : d.IsAt path) (name : String) (kind : ParticipantKind) (line : Option Int) :
    (d.add name kind line).IsAt path := by
  unfold Diagram.add
  split
  · exact h
  · refine ⟨h.own, fun p hp => ?_, h.interactions⟩
    rcases List.mem_append.1 hp with hp | hp
    · exact h.participants p hp
    · rw [List.mem_singleton.1 hp]
      exact h.own

theorem addCall (h : d.IsAt path) (known : KnownNames) (calls : CallSyntax) (caller : String)
    (call : ResolvedCall) (capture : Capture CallTag) :
    (d.addCall known calls caller call capture).IsAt path := by
  have hadded := h.add call.target
    (if known.functions.contains call.target then .function else .cls) none
  refine ⟨hadded.own, hadded.participants, fun i hi => ?_⟩
  rcases mem_interactions_addCall hi with hi | ⟨isAsync, hi⟩
  · exact h.interactions i hi
  · rw [Interaction.callAndReturn, List.mem_cons, List.mem_singleton] at hi
    rcases hi with rfl | rfl
    · exact h.own
    · exact h.own

/-- **Whatever is captured keeps the path.** -/
theorem addCapture (h : d.IsAt path) {table : TypeTable} {known : KnownNames} {calls : CallSyntax}
    {scopes : List Scope} (capture : Capture CallTag) :
    (d.addCapture table known calls scopes capture).IsAt path := by
  rcases addCapture_cases table known calls scopes d capture with
    hsame | ⟨caller, call, -, -, hadded⟩
  · rw [hsame]
    exact h
  · rw [hadded]
    exact h.addCall known calls caller call capture

end Diagram.IsAt

theorem Diagram.isAt_ofOutline (o : Outline) : (ofOutline o).IsAt o.path :=
  ofOutline_of_invariant (P := fun d => d.IsAt o.path) o (fun _ _ _ _ h => h.add _ _ _)
    ⟨rfl, fun _ h => absurd h List.not_mem_nil, fun _ h => absurd h List.not_mem_nil⟩

/-- **Every participant and every interaction of a file carries its path.** -/
theorem SequenceReport.isAt_ofOutline (o : Outline) :
    (∀ p ∈ (ofOutline o).participants, p.path = o.path) ∧
      ∀ i ∈ (ofOutline o).interactions, i.path = o.path := by
  obtain ⟨d, hd, hreport⟩ := ofOutline_of_invariant (P := fun d => d.IsAt o.path)
    (Diagram.isAt_ofOutline o) fun calls d hd capture _ => hd.addCapture capture
  rw [hreport]
  exact ⟨hd.participants, hd.interactions⟩

end CodeAtlas
