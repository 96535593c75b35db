import CodeAtlas.Proofs.Parser.History
import CodeAtlas.Proofs.Parser.Reliable
import Mathlib.Data.List.Forall2

/-!
# Lazy registration looks like eager registration

Seen from outside, a reliable registry is the set of its languages. `Action.leaves` says what an
action does to that set and `Action.reply` how it is answered, and both are all there is to a step
(`contains_perform`, `IsReliable.answer_perform`). Neither tells a factory from the parser that it
makes, so a history and the one in which every factory is replaced by its parser run side by side
(`alike_trace`). The parsers themselves are told apart by their language alone: when they are made,
and how many, differs.
-/

namespace CodeAtlas.ParserRegistry

variable {r s after : ParserRegistry} {language other : Language} {parser : Parser}
  {factory : ParserFactory} {action replaced : Action} {known : Language → Bool}

/-! ## 1. The set of languages as a machine -/

namespace Action

/-- The languages that have an entry after an action. -/
def leaves (known : Language → Bool) (action : Action) (language : Language) : Bool :=
  (known language || action.registers? == some language) && !action.removes language

/-- The answer to an action, with parsers given by their language. -/
def reply (known : Language → Bool) : Action → Except Failure (Answer Language)
  | register parser =>
    if known parser.language then .error (.alreadyRegistered parser.language) else .ok .done
  | registerLazy language _ =>
    if known language then .error (.alreadyRegistered language) else .ok .done
  | get language => .ok (.found (if known language then some language else none))
  | getForFile path =>
    match Language.ofFile path with
    | .error e => .error e
    | .ok none => .ok (.found none)
    | .ok (some language) =>
      if known language then .ok (.found (some language)) else .error (.noParser language path)
  | unregister language => .ok (.removed (known language))
  | clear => .ok .done

/-- What registers a language adds it and removes none. -/
theorem leaves_of_registers? (h : action.registers? = some language) :
    action.leaves known other = true ↔ known other = true ∨ language = other := by
  have hremoves : action.removes other = false := by
    cases action <;> first | rfl | cases h
  rw [leaves, h, hremoves, Bool.not_false, Bool.and_true, Bool.or_eq_true, beq_iff_eq,
    Option.some_inj]

/-- Questions change nothing. -/
theorem leaves_of_asks (h : action.asks = true) : action.leaves known = known := by
  have hregisters : action.registers? = none := by
    cases action <;> first | rfl | cases h
  have hremoves : ∀ language, action.removes language = false := by
    intro language
    cases action <;> first | rfl | cases h
  funext language
  rw [leaves, hregisters, hremoves, Bool.not_false, Bool.and_true]
  exact Bool.or_false _

theorem reply_of_registers? (h : action.registers? = some language) :
    action.reply known
      = if known language then .error (.alreadyRegistered language) else .ok .done := by
  cases action <;> cases h <;> rfl

theorem leaves_unregister :
    (unregister language).leaves known other = true ↔ known other = true ∧ language ≠ other := by
  simp [leaves, registers?, removes]

end Action

theorem contains_concat_ready :
    { r with ready := r.ready ++ [parser] }.contains other = true ↔
      r.contains other = true ∨ parser.language = other := by
  simp only [contains_iff, List.mem_append, List.mem_singleton, or_and_right, exists_or,
    exists_eq_left]
  exact or_right_comm

theorem contains_concat_pending :
    { r with pending := r.pending ++ [(language, factory)] }.contains other = true ↔
      r.contains other = true ∨ language = other := by
  simp only [contains_iff, List.mem_append, List.mem_singleton, or_and_right, exists_or,
    exists_eq_left]
  exact or_assoc.symm

theorem contains_unregister :
    (r.unregister language).1.contains other = true ↔
      r.contains other = true ∧ language ≠ other := by
  simp only [contains_iff, unregister, List.mem_filter, bne_iff_ne]
  constructor
  · rintro (⟨parser, ⟨hparser, hne⟩, rfl⟩ | ⟨entry, ⟨hentry, hne⟩, rfl⟩)
    · exact ⟨Or.inl ⟨parser, hparser, rfl⟩, Ne.symm hne⟩
    · exact ⟨Or.inr ⟨entry, hentry, rfl⟩, Ne.symm hne⟩
  · rintro ⟨⟨parser, hparser, rfl⟩ | ⟨entry, hentry, rfl⟩, hne⟩
    · exact Or.inl ⟨parser, ⟨hparser, Ne.symm hne⟩, rfl⟩
    · exact Or.inr ⟨entry, ⟨hentry, Ne.symm hne⟩, rfl⟩

theorem Move.contains (h : Move r action after) : after.contains = action.leaves r.contains := by
  cases h with
  | @refuse _ language hregisters hcontains =>
    funext other
    rw [Bool.eq_iff_iff, Action.leaves_of_registers? hregisters, iff_comm, or_iff_left_iff_imp]
    rintro rfl
    exact hcontains
  | add =>
    funext other
    rw [Bool.eq_iff_iff, Action.leaves_of_registers? rfl, contains_concat_ready]
  | await =>
    funext other
    rw [Bool.eq_iff_iff, Action.leaves_of_registers? rfl, contains_concat_pending]
  | answer hasks => exact (Action.leaves_of_asks hasks).symm
  | call hasks => exact (Action.leaves_of_asks hasks).symm
  | make hasks _ hfactory =>
    rw [Action.leaves_of_asks hasks]
    exact contains_withParser_of_factory? hfactory
  | remove language =>
    funext other
    rw [Bool.eq_iff_iff, Action.leaves_unregister, contains_unregister]
  | clear =>
    funext other
    exact (Bool.and_false _).symm

/-- **Which languages have an entry after an action** depends on which had one before it. -/
theorem contains_perform (r : ParserRegistry) (action : Action) :
    (r.perform action).registry.contains = action.leaves r.contains :=
  (r.move_perform action).contains

/-! ## 2. A reliable registry is that machine -/

/-- An action that registers no factory but those that make a parser of their language. -/
def Action.IsReliable (action : Action) : Prop :=
  ∀ language factory, action = .registerLazy language factory → factory.product = .ok language

theorem IsReliable.perform (h : r.IsReliable) (haction : action.IsReliable) :
    (r.perform action).registry.IsReliable := by
  have hmove := r.move_perform action
  generalize (r.perform action).registry = after at hmove
  cases hmove with
  | refuse => exact h
  | add => exact h
  | @await language factory =>
    intro entry hentry
    rcases List.mem_append.1 hentry with hentry | hentry
    · exact h entry hentry
    · rw [List.mem_singleton.1 hentry]
      exact haction language factory rfl
  | answer => exact h
  | call => exact h
  | make => exact h.of_subset List.filter_sublist.subset
  | remove => exact h.of_subset List.filter_sublist.subset
  | clear => exact h.of_subset (List.nil_subset _)

/-- **What a reliable registry answers** depends on its languages alone. -/
theorem IsReliable.answer_perform (h : r.IsReliable) (action : Action) :
    (r.perform action).answer.map (Answer.map (·.language)) = action.reply r.contains := by
  cases action with
  | register parser =>
    rw [answer_of_registers? rfl, Action.reply_of_registers? rfl]
    split <;> rfl
  | registerLazy language factory =>
    rw [answer_of_registers? rfl, Action.reply_of_registers? rfl]
    split <;> rfl
  | get language =>
    rw [ParserRegistry.perform, Action.reply]
    cases hcontains : r.contains language with
    | true =>
      obtain ⟨after, serial, hget, -⟩ := h.exists_get hcontains
      rw [hget]
      rfl
    | false =>
      rw [get_of_contains hcontains]
      rfl
  | getForFile path =>
    rw [ParserRegistry.perform, Action.reply]
    cases hfile : Language.ofFile path with
    | error e =>
      rw [getForFile, hfile]
      rfl
    | ok found =>
      cases found with
      | none =>
        rw [getForFile, hfile]
        rfl
      | some language =>
        rw [getForFile_of_ofFile hfile]
        dsimp only
        cases hcontains : r.contains language with
        | true =>
          obtain ⟨after, serial, hget, -⟩ := h.exists_get hcontains
          rw [hget]
          rfl
        | false =>
          rw [get_of_contains hcontains]
          rfl
  | unregister language => rfl
  | clear => rfl

/-! ## 3. Parsers in place of factories -/

/-- Whether an action registers a factory. -/
def Action.isLazy : Action → Bool
  | registerLazy _ _ => true
  | _ => false

/-- **The same action, done eagerly**: a factory is replaced by a parser of the language that it
makes one of, which is the one that it was registered for. -/
inductive Action.Eager : Action → Action → Prop where
  | parser {language : Language} {factory : ParserFactory} {parser : Parser}
    (hproduct : factory.product = .ok language) (hparser : parser.language = language) :
    Eager (.registerLazy language factory) (.register parser)
  | same {action : Action} (hlazy : action.isLazy = false) : Eager action action

namespace Action.Eager

/-- Neither of the two registers a factory that does not keep its word. -/
theorem isReliable (h : action.Eager replaced) : action.IsReliable ∧ replaced.IsReliable := by
  cases h with
  | parser hproduct =>
    refine ⟨fun language factory heq => ?_, fun language factory heq => by cases heq⟩
    cases heq
    exact hproduct
  | same hlazy =>
    have hreliable : action.IsReliable := by
      rintro language factory rfl
      cases hlazy
    exact ⟨hreliable, hreliable⟩

theorem leaves (h : action.Eager replaced) : action.leaves known = replaced.leaves known := by
  cases h with
  | parser _ hparser =>
    subst hparser
    rfl
  | same => rfl

theorem reply (h : action.Eager replaced) : action.reply known = replaced.reply known := by
  cases h with
  | parser _ hparser =>
    subst hparser
    rfl
  | same => rfl

end Action.Eager

/-- **Two registries look alike**: the same languages have an entry, and files are taken and parsed
alike. -/
structure Alike (r s : ParserRegistry) : Prop where
  contains : ∀ language, r.contains language = s.contains language
  languages : ∀ language, language ∈ r.languages ↔ language ∈ s.languages
  canParse : ∀ path, r.canParse path = s.canParse path
  parse : ∀ path root, (r.parse path root).outline = (s.parse path root).outline

theorem IsReliable.alike (hr : r.IsReliable) (hs : s.IsReliable) (h : r.contains = s.contains) :
    Alike r s where
  contains language := by rw [h]
  languages language := by rw [mem_languages, mem_languages, h]
  canParse path := by rw [ParserRegistry.canParse, ParserRegistry.canParse, h]
  parse path root := by
    obtain ⟨-, -, houtline⟩ := hr.parse path root
    obtain ⟨-, -, houtline'⟩ := hs.parse path root
    rw [houtline, houtline', h]

/-- **Two steps look alike**: both have the same answer up to which parser of a language is given,
and leave registries that look alike. -/
structure Step.Alike (x y : Step) : Prop where
  answer : x.answer.map (Answer.map (·.language)) = y.answer.map (Answer.map (·.language))
  registry : ParserRegistry.Alike x.registry y.registry

theorem forall₂_alike_trace {lazy eager : List Action} (hr : r.IsReliable) (hs : s.IsReliable)
    (hrs : r.contains = s.contains) (h : List.Forall₂ Action.Eager lazy eager) :
    List.Forall₂ Step.Alike (r.trace lazy) (s.trace eager) := by
  -- both stay reliable and keep the same languages, though not the same parsers and factories
  induction h generalizing r s with
  | nil => exact .nil
  | @cons action replaced _ _ heager _ ih =>
    obtain ⟨hreliable, hreliable'⟩ := heager.isReliable
    have hcontains : (r.perform action).registry.contains
        = (s.perform replaced).registry.contains := by
      rw [contains_perform, contains_perform, hrs, heager.leaves]
    have hanswer : (r.perform action).answer.map (Answer.map (·.language))
        = (s.perform replaced).answer.map (Answer.map (·.language)) := by
      rw [hr.answer_perform, hs.answer_perform, hrs, heager.reply]
    have hr' := hr.perform hreliable
    have hs' := hs.perform hreliable'
    exact .cons ⟨hanswer, hr'.alike hs' hcontains⟩ (ih hr' hs' hcontains)

/-- **Lazy registration looks like eager registration**, step by step, in every history of a new
registry whose factories make parsers of their languages. -/
theorem alike_trace {lazy eager : List Action} (h : List.Forall₂ Action.Eager lazy eager) :
    List.Forall₂ Step.Alike (({} : ParserRegistry).trace lazy)
      (({} : ParserRegistry).trace eager) :=
  forall₂_alike_trace (fun _ h => nomatch h) (fun _ h => nomatch h) rfl h

/-- A parser that is made on demand and removed. -/
def madeOnDemand : List Action :=
  [.registerLazy .java (.standard .java), .get .java, .unregister .java, .get .java]

/-- The same with a parser that is there from the start. -/
def madeAtOnce : List Action :=
  [.register ⟨.java, 7⟩, .get .java, .unregister .java, .get .java]

theorem alike_trace_removed :
    List.Forall₂ Action.Eager madeOnDemand madeAtOnce ∧
      List.Forall₂ Step.Alike (({} : ParserRegistry).trace madeOnDemand)
        (({} : ParserRegistry).trace madeAtOnce) := by
  have heager : List.Forall₂ Action.Eager madeOnDemand madeAtOnce :=
    .cons (.parser rfl rfl) (.cons (.same rfl) (.cons (.same rfl) (.cons (.same rfl) .nil)))
  exact ⟨heager, alike_trace heager⟩

end CodeAtlas.ParserRegistry
