import CodeAtlas.Parser.History
import CodeAtlas.Proofs.Parser.Entry
import CodeAtlas.Proofs.Table
import Mathlib.Data.List.Nodup

/-!
# What a registry guarantees at any time

All that one action can do to a registry is listed once (`Move`), and what holds at any time is read
off that list. The invariant is that no language has two entries (`keys`). A parser that is ready
stays so until its language is removed (`ready?_after`), so the same one is given again and no
factory is called for it. A failure leaves nothing but a mark in the log of calls, which no action
reads (`perform_withoutCalls`). `guarantees_after` puts this together for every list of actions on
a new registry.
-/

namespace CodeAtlas.ParserRegistry

variable {r after : ParserRegistry} {language other : Language} {parser : Parser}
  {factory : ParserFactory} {action : Action} {path : String}

/-! ## 1. What one action does -/

/-- **What an action does to a registry.** -/
inductive Move (r : ParserRegistry) : Action → ParserRegistry → Prop where
  /-- A language with an entry gets no other. -/
  | refuse {action : Action} {language : Language} (hregisters : action.registers? = some language)
    (hcontains : r.contains language = true) : Move r action r
  | add {parser : Parser} (hcontains : r.contains parser.language = false) :
    Move r (.register parser) { r with ready := r.ready ++ [parser] }
  | await {language : Language} {factory : ParserFactory}
    (hcontains : r.contains language = false) :
    Move r (.registerLazy language factory)
      { r with pending := r.pending ++ [(language, factory)] }
  /-- The answer is known without calling a factory. -/
  | answer {action : Action} (hasks : action.asks = true) : Move r action r
  | call {action : Action} {language : Language} {factory : ParserFactory}
    (hasks : action.asks = true) (hready : r.ready? language = none)
    (hfactory : r.factory? language = some factory) (hproduct : factory.product ≠ .ok language) :
    Move r action (r.withCall language factory)
  | make {action : Action} {language : Language} {factory : ParserFactory}
    (hasks : action.asks = true) (hready : r.ready? language = none)
    (hfactory : r.factory? language = some factory) (hproduct : factory.product = .ok language) :
    Move r action (r.withParser language factory)
  | remove (language : Language) : Move r (.unregister language) (r.unregister language).1
  | clear : Move r .clear r.clear

/-- The registry with the entry that an action registers. -/
def withEntryOf (r : ParserRegistry) : Action → ParserRegistry
  | .register parser => { r with ready := r.ready ++ [parser] }
  | .registerLazy language factory =>
    { r with pending := r.pending ++ [(language, factory)] }
  | _ => r

theorem perform_of_contains (h : action.registers? = some language)
    (hcontains : r.contains language = true) :
    r.perform action = ⟨.error (.alreadyRegistered language), r⟩ := by
  cases action with
  | register parser =>
    cases h
    rw [perform, add, if_pos hcontains]
    rfl
  | registerLazy language factory =>
    cases h
    rw [perform, registerLazy, if_pos hcontains]
    rfl
  | _ => cases h

theorem perform_of_new (h : action.registers? = some language)
    (hcontains : r.contains language = false) :
    r.perform action = ⟨.ok .done, r.withEntryOf action⟩ := by
  cases action with
  | register parser =>
    cases h
    rw [perform, add, hcontains]
    rfl
  | registerLazy language factory =>
    cases h
    rw [perform, registerLazy, hcontains]
    rfl
  | _ => cases h

/-- A registration is taken for a language without an entry, and for no other. -/
theorem answer_of_registers? (h : action.registers? = some language) :
    (r.perform action).answer
      = if r.contains language then .error (.alreadyRegistered language) else .ok .done := by
  cases hcontains : r.contains language with
  | true => rw [perform_of_contains h hcontains, if_pos rfl]
  | false => rw [perform_of_new h hcontains, if_neg Bool.false_ne_true]

/-- What a file needs of the answer for its language. -/
def required (language : Language) (path : String) : Option Parser → Except Failure (Option Parser)
  | some parser => .ok (some parser)
  | none => .error (.noParser language path)

/-- Asking for the parser of a file is asking for that of its language, which must have one. -/
theorem getForFile_of_ofFile (h : Language.ofFile path = .ok (some language)) :
    r.getForFile path = ((r.get language).1, (r.get language).2.bind (required language path)) := by
  rw [getForFile, h]
  dsimp only
  rcases r.get language with ⟨after, e | none | parser⟩ <;> rfl

/-- Either the path decides the answer, or its language is asked for. -/
theorem getForFile_cases (path : String) :
    (∃ answer, ∀ r : ParserRegistry, r.getForFile path = (r, answer)) ∨
      ∃ language, ∀ r : ParserRegistry, r.getForFile path
        = ((r.get language).1, (r.get language).2.bind (required language path)) := by
  cases h : Language.ofFile path with
  | error e => exact Or.inl ⟨.error e, fun r => by rw [getForFile, h]⟩
  | ok found =>
    cases found with
    | none => exact Or.inl ⟨.ok none, fun r => by rw [getForFile, h]⟩
    | some language => exact Or.inr ⟨language, fun r => getForFile_of_ofFile h⟩

theorem move_get (hasks : action.asks = true) (language : Language) :
    Move r action (r.get language).1 := by
  have hfetched := r.fetched_get language
  generalize r.get language = fetched at hfetched
  cases hfetched with
  | missing => exact .answer hasks
  | ready => exact .answer hasks
  | made hready hfactory hproduct => exact .make hasks hready hfactory hproduct
  | failed hready hfactory hproduct => exact .call hasks hready hfactory hproduct

theorem move_perform (r : ParserRegistry) (action : Action) :
    Move r action (r.perform action).registry := by
  cases action with
  | register parser =>
    cases h : r.contains parser.language with
    | true =>
      rw [perform_of_contains rfl h]
      exact .refuse rfl h
    | false =>
      rw [perform_of_new rfl h]
      exact .add h
  | registerLazy language factory =>
    cases h : r.contains language with
    | true =>
      rw [perform_of_contains rfl h]
      exact .refuse rfl h
    | false =>
      rw [perform_of_new rfl h]
      exact .await h
  | get language => exact move_get rfl language
  | getForFile path =>
    rw [perform]
    rcases getForFile_cases path with ⟨answer, h⟩ | ⟨language, h⟩
    · rw [h]
      exact .answer rfl
    · rw [h]
      exact move_get rfl language
  | unregister language => exact .remove language
  | clear => exact .clear

/-! ## 2. No language has two entries -/

/-- The languages of all entries. -/
def keys (r : ParserRegistry) : List Language :=
  r.ready.map (·.language) ++ r.pending.map (·.1)

theorem mem_keys : language ∈ r.keys ↔ r.contains language = true := by
  rw [keys, List.mem_append, List.mem_map, List.mem_map, contains_iff]

theorem keys_sublist (hready : after.ready.Sublist r.ready)
    (hpending : after.pending.Sublist r.pending) : after.keys.Sublist r.keys :=
  (hready.map _).append (hpending.map _)

theorem keys_withParser_sublist :
    (r.withParser language factory).keys.Sublist
      (r.ready.map (·.language) ++ language ::
        (r.pending.filter (·.1 != language)).map (·.1)) := by
  rw [keys, withParser, List.map_append, List.append_assoc]
  exact List.Sublist.refl _

/-- **One action gives no language a second entry.** -/
theorem Move.nodup_keys (h : Move r action after) (hkeys : r.keys.Nodup) : after.keys.Nodup := by
  cases h with
  | refuse => exact hkeys
  | @add parser hcontains =>
    have hadded : ({ r with ready := r.ready ++ [parser] } : ParserRegistry).keys
        = r.ready.map (·.language) ++ parser.language :: r.pending.map (·.1) := by
      rw [keys, List.map_append, List.append_assoc]
      rfl
    -- the new parser stands between the other parsers and the factories
    rw [hadded, List.nodup_middle, List.nodup_cons]
    refine ⟨?_, hkeys⟩
    have hnew : parser.language ∉ r.keys := by
      rw [mem_keys, hcontains]
      exact Bool.false_ne_true
    exact hnew
  | @await language factory hcontains =>
    have hadded : ({ r with pending := r.pending ++ [(language, factory)] } : ParserRegistry).keys
        = r.keys.concat language := by
      rw [keys, List.map_append, ← List.append_assoc, List.concat_eq_append]
      rfl
    rw [hadded]
    refine hkeys.concat ?_
    rw [mem_keys, hcontains]
    exact Bool.false_ne_true
  | answer => exact hkeys
  | call => exact hkeys
  | @make _ language factory _ hready =>
    refine keys_withParser_sublist.nodup ?_
    rw [List.nodup_middle, List.nodup_cons]
    constructor
    -- no parser was ready for the language, and its factory has gone
    · rw [List.mem_append, List.mem_map, List.mem_map]
      rintro (⟨parser, hparser, hlanguage⟩ | ⟨entry, hentry, hlanguage⟩)
      · exact List.find?_eq_none.1 hready parser hparser (beq_iff_eq.2 hlanguage)
      · exact bne_iff_ne.1 (List.mem_filter.1 hentry).2 hlanguage
    · exact hkeys.sublist ((List.Sublist.refl _).append (List.filter_sublist.map _))
  | remove => exact hkeys.sublist (keys_sublist List.filter_sublist List.filter_sublist)
  | clear => exact List.nodup_nil

theorem nodup_keys_after (hkeys : r.keys.Nodup) (actions : List Action) :
    (r.after actions).keys.Nodup := by
  induction actions generalizing r with
  | nil => exact hkeys
  | cons action rest ih => exact ih ((r.move_perform action).nodup_keys hkeys)

theorem ready?_or_factory?_eq_none (hkeys : r.keys.Nodup) (language : Language) :
    r.ready? language = none ∨ r.factory? language = none := by
  cases hready : r.ready? language with
  | none => exact Or.inl rfl
  | some parser =>
    right
    cases hfactory : r.factory? language with
    | none => rfl
    | some factory =>
      have hleft : language ∈ r.ready.map (·.language) :=
        List.mem_map.2 ⟨parser, mem_ready_of_ready? hready, language_of_ready? hready⟩
      have hright : language ∈ r.pending.map (·.1) :=
        List.mem_map.2 ⟨_, mem_pending_of_factory? hfactory, rfl⟩
      exact absurd rfl ((List.nodup_append.1 hkeys).2.2 language hleft language hright)

/-- Every language listed is listed once. -/
theorem nodup_languages (hkeys : r.keys.Nodup) : r.languages.Nodup := by
  have hsublist : r.languages.Sublist r.keys := by
    rw [languages, keys]
    exact (List.Sublist.refl _).append List.filter_sublist
  exact hkeys.sublist hsublist

/-! ## 3. A parser that is ready stays so -/

theorem ready?_concat (h : r.ready? language = some parser) (more : List Parser) :
    (r.ready ++ more).find? (·.language == language) = some parser := by
  have hfound : r.ready.find? (·.language == language) = some parser := h
  rw [List.find?_append, hfound, Option.some_or]

theorem ready?_unregister (h : other ≠ language) :
    (r.unregister other).1.ready? language = r.ready? language := by
  rw [ready?, unregister, Table.find?_filter_of_ne _ h, ready?]

theorem Move.ready? (h : Move r action after) (hready : r.ready? language = some parser)
    (hremoves : action.removes language = false) : after.ready? language = some parser := by
  cases h with
  | refuse => exact hready
  | add => exact ready?_concat hready _
  | await => exact hready
  | answer => exact hready
  | call => exact hready
  | make => exact ready?_concat hready _
  | remove removed =>
    have hother : removed ≠ language := beq_eq_false_iff_ne.1 hremoves
    rw [ready?_unregister hother, hready]
  | clear => cases hremoves

/-- **A parser that is ready stays so** until its language is removed. -/
theorem ready?_after (hready : r.ready? language = some parser) {later : List Action}
    (hlater : ∀ action ∈ later, action.removes language = false) :
    (r.after later).ready? language = some parser := by
  induction later generalizing r with
  | nil => exact hready
  | cons action rest ih =>
    have hnext := (r.move_perform action).ready? hready (hlater action List.mem_cons_self)
    exact ih hnext fun action haction => hlater action (List.mem_cons_of_mem _ haction)

theorem ready?_withParser (hready : r.ready? language = none) :
    (r.withParser language factory).ready? language = some ⟨language, r.made⟩ := by
  have hmissing : r.ready.find? (·.language == language) = none := hready
  rw [ParserRegistry.ready?, withParser, List.find?_append, hmissing, Option.none_or]
  exact List.find?_cons_of_pos (beq_self_eq_true _)

/-- A parser that was given is ready from then on. -/
theorem ready?_get (h : (r.get language).2 = .ok (some parser)) :
    (r.get language).1.ready? language = some parser := by
  have hfetched := r.fetched_get language
  generalize r.get language = fetched at hfetched h
  cases hfetched with
  | missing => cases h
  | ready hready =>
    cases h
    exact hready
  | made hready =>
    cases h
    exact ready?_withParser hready
  | failed => cases h

/-! ## 4. Calls of factories -/

/-- **A call that is accepted is the last one** for its language. -/
def AcceptsOnce (language : Language) (calls : List (Language × ParserFactory)) : Prop :=
  calls.Pairwise fun call next =>
    call.1 = language → call.2.product = .ok language → next.1 ≠ language

/-- A factory is called for a language without a parser, which has one if the call is accepted. -/
theorem Move.calls (h : Move r action after) :
    after.calls = r.calls ∨
      ∃ language factory, r.ready? language = none ∧
        after.calls = r.calls ++ [(language, factory)] ∧
        (factory.product = .ok language → ∃ parser, after.ready? language = some parser) := by
  cases h with
  | refuse => exact Or.inl rfl
  | add => exact Or.inl rfl
  | await => exact Or.inl rfl
  | answer => exact Or.inl rfl
  | @call _ language factory _ hready _ hproduct =>
    exact Or.inr ⟨language, factory, hready, rfl, fun h => absurd h hproduct⟩
  | @make _ language factory _ hready =>
    exact Or.inr ⟨language, factory, hready, rfl, fun _ => ⟨_, ready?_withParser hready⟩⟩
  | remove => exact Or.inl rfl
  | clear => exact Or.inl rfl

/-- **As long as a language is not removed**, one call for it is accepted at most, which is the last
one for it; and no factory is called for it while it has a parser. -/
theorem calls_after {later : List Action}
    (hlater : ∀ action ∈ later, action.removes language = false) :
    ∃ new, (r.after later).calls = r.calls ++ new ∧ AcceptsOnce language new ∧
      ∀ parser, r.ready? language = some parser → ∀ call ∈ new, call.1 ≠ language := by
  -- that a language with a parser is not called for is what the first call of the rest needs
  induction later generalizing r with
  | nil => exact ⟨[], (List.append_nil _).symm, List.Pairwise.nil, fun _ _ _ h => nomatch h⟩
  | cons action rest ih =>
    have hmove := r.move_perform action
    have hready := fun parser (h : r.ready? language = some parser) =>
      hmove.ready? h (hlater action List.mem_cons_self)
    obtain ⟨new, hnew, honce, hcalls⟩ :=
      ih (r := (r.perform action).registry) fun a ha => hlater a (List.mem_cons_of_mem _ ha)
    have hafter : (r.after (action :: rest)).calls
        = (r.perform action).registry.calls ++ new := hnew
    rcases hmove.calls with hsame | ⟨called, factory, hnone, hcall, haccepted⟩
    · rw [hsame] at hafter
      exact ⟨new, hafter, honce, fun parser h => hcalls parser (hready parser h)⟩
    · rw [hcall, List.append_assoc] at hafter
      refine ⟨(called, factory) :: new, hafter, List.pairwise_cons.2 ⟨?_, honce⟩, ?_⟩
      -- once the call is accepted, the language has a parser
      · rintro next hnext rfl hproduct
        obtain ⟨parser, hparser⟩ := haccepted hproduct
        exact hcalls parser hparser next hnext
      · intro parser h call hmem
        rcases List.mem_cons.1 hmem with rfl | hmem
        · rintro rfl
          rw [h] at hnone
          cases hnone
        · exact hcalls parser (hready parser h) call hmem

/-! ## 5. Failures leave nothing behind -/

/-- What can be seen of a step: the answer, and which languages have an entry after it. -/
structure Observation where
  answer : Except Failure (Answer Parser)
  contains : Language → Bool
  languages : List Language

/-- What can be seen of the steps of a list of actions. -/
def observe (r : ParserRegistry) (actions : List Action) : List Observation :=
  (r.trace actions).map fun step => ⟨step.answer, step.registry.contains, step.registry.languages⟩

/-- The registry without the log of calls. -/
def withoutCalls (r : ParserRegistry) : ParserRegistry :=
  { r with calls := [] }

theorem contains_eq_of_withoutCalls (h : after.withoutCalls = r.withoutCalls) :
    after.contains = r.contains := by
  have hcontains : after.withoutCalls.contains = r.withoutCalls.contains := by rw [h]
  exact hcontains

theorem languages_eq_of_withoutCalls (h : after.withoutCalls = r.withoutCalls) :
    after.languages = r.languages := by
  have hlanguages : after.withoutCalls.languages = r.withoutCalls.languages := by rw [h]
  exact hlanguages

theorem get_withoutCalls (r : ParserRegistry) (language : Language) :
    (r.withoutCalls.get language).2 = (r.get language).2 ∧
      (r.withoutCalls.get language).1.withoutCalls = (r.get language).1.withoutCalls := by
  cases hready : r.ready? language with
  | some parser =>
    have hready' : r.withoutCalls.ready? language = some parser := hready
    rw [get_of_ready hready, get_of_ready hready']
    exact ⟨rfl, rfl⟩
  | none =>
    cases hfactory : r.factory? language with
    | none =>
      have hcontains := contains_eq_false_iff.2 ⟨hready, hfactory⟩
      have hcontains' : r.withoutCalls.contains language = false := hcontains
      rw [get_of_contains hcontains, get_of_contains hcontains']
      exact ⟨rfl, rfl⟩
    | some factory =>
      have hready' : r.withoutCalls.ready? language = none := hready
      have hfactory' : r.withoutCalls.factory? language = some factory := hfactory
      rw [get_of_factory hready hfactory, get_of_factory hready' hfactory', materialize,
        materialize]
      cases factory.product with
      | error e => exact ⟨rfl, rfl⟩
      | ok actual =>
        dsimp only
        split <;> exact ⟨rfl, rfl⟩

theorem perform_withoutCalls_of_registers? (h : action.registers? = some language) :
    (r.withoutCalls.perform action).answer = (r.perform action).answer ∧
      (r.withoutCalls.perform action).registry.withoutCalls
        = (r.perform action).registry.withoutCalls := by
  cases hcontains : r.contains language with
  | true =>
    have hcontains' : r.withoutCalls.contains language = true := hcontains
    rw [perform_of_contains h hcontains, perform_of_contains h hcontains']
    exact ⟨rfl, rfl⟩
  | false =>
    have hcontains' : r.withoutCalls.contains language = false := hcontains
    rw [perform_of_new h hcontains, perform_of_new h hcontains']
    exact ⟨rfl, by cases action <;> rfl⟩

/-- **No action reads the log of calls.** -/
theorem perform_withoutCalls (r : ParserRegistry) (action : Action) :
    (r.withoutCalls.perform action).answer = (r.perform action).answer ∧
      (r.withoutCalls.perform action).registry.withoutCalls
        = (r.perform action).registry.withoutCalls := by
  cases action with
  | register parser => exact perform_withoutCalls_of_registers? rfl
  | registerLazy language factory => exact perform_withoutCalls_of_registers? rfl
  | get language =>
    obtain ⟨hanswer, hregistry⟩ := r.get_withoutCalls language
    exact ⟨congrArg (Except.map Answer.found) hanswer, hregistry⟩
  | getForFile path =>
    rw [perform, perform]
    rcases getForFile_cases path with ⟨answer, h⟩ | ⟨language, h⟩
    · rw [h, h]
      exact ⟨rfl, rfl⟩
    · obtain ⟨hanswer, hregistry⟩ := r.get_withoutCalls language
      rw [h, h, hanswer]
      exact ⟨rfl, hregistry⟩
  | unregister language => exact ⟨rfl, rfl⟩
  | clear => exact ⟨rfl, rfl⟩

theorem observe_withoutCalls (r : ParserRegistry) (actions : List Action) :
    r.withoutCalls.observe actions = r.observe actions := by
  induction actions generalizing r with
  | nil => rfl
  | cons action rest ih =>
    obtain ⟨hanswer, hregistry⟩ := r.perform_withoutCalls action
    have hrest : (r.withoutCalls.perform action).registry.observe rest
        = (r.perform action).registry.observe rest := by
      rw [← ih, ← ih (r.perform action).registry, hregistry]
    rw [observe, trace, List.map_cons, hanswer, contains_eq_of_withoutCalls hregistry,
      languages_eq_of_withoutCalls hregistry]
    exact congrArg _ hrest

/-- Asking for a parser changes the registry only if it gives one. -/
theorem withoutCalls_get (h : ∀ parser, (r.get language).2 ≠ .ok (some parser)) :
    (r.get language).1.withoutCalls = r.withoutCalls := by
  have hfetched := r.fetched_get language
  generalize r.get language = fetched at hfetched h
  cases hfetched with
  | missing => rfl
  | ready => exact absurd rfl (h _)
  | made => exact absurd rfl (h _)
  | failed => rfl

/-- A registration that fails changes nothing. -/
theorem registry_perform_of_registers? {e : Failure} (h : action.registers? = some language)
    (herror : (r.perform action).answer = .error e) : (r.perform action).registry = r := by
  cases hcontains : r.contains language with
  | true => rw [perform_of_contains h hcontains]
  | false =>
    rw [perform_of_new h hcontains] at herror
    cases herror

/-- **A failure changes nothing** but the log of calls. -/
theorem withoutCalls_perform_of_error {e : Failure} (h : (r.perform action).answer = .error e) :
    (r.perform action).registry.withoutCalls = r.withoutCalls := by
  cases action with
  | register parser => rw [registry_perform_of_registers? rfl h]
  | registerLazy language factory => rw [registry_perform_of_registers? rfl h]
  | get language =>
    refine withoutCalls_get fun parser hparser => ?_
    rw [perform, hparser] at h
    cases h
  | getForFile path =>
    rw [perform] at h ⊢
    rcases getForFile_cases path with ⟨answer, hfile⟩ | ⟨language, hfile⟩
    · rw [hfile]
    · rw [hfile] at h ⊢
      refine withoutCalls_get fun parser hparser => ?_
      rw [hparser] at h
      cases h
  | unregister language => cases h
  | clear => cases h

/-! ## 6. The guarantees -/

/-- **What a registry guarantees.** -/
structure Guarantees (r : ParserRegistry) : Prop where
  /-- No language has both a parser and a factory. -/
  ready?_or_factory? : ∀ language, r.ready? language = none ∨ r.factory? language = none
  /-- The languages listed are those with an entry. -/
  mem_languages : ∀ language, language ∈ r.languages ↔ r.contains language = true
  /-- None of them is listed twice. -/
  nodup_languages : r.languages.Nodup
  /-- There is no parser for a language just when it has no entry. -/
  get_eq_none : ∀ language, (r.get language).2 = .ok none ↔ r.contains language = false
  /-- A parser that is given is one for the language asked for. -/
  language_of_get : ∀ language parser, (r.get language).2 = .ok (some parser) →
    parser.language = language
  /-- The same parser is given again, until its language is removed. -/
  get_again : ∀ language parser, (r.get language).2 = .ok (some parser) →
    ∀ later : List Action, (∀ action ∈ later, action.removes language = false) →
      (((r.get language).1.after later).get language).2 = .ok (some parser)
  /-- Parsers are taken for languages without an entry, and for no others. -/
  register : ∀ parser, (r.perform (.register parser)).answer
    = if r.contains parser.language then .error (.alreadyRegistered parser.language)
      else .ok .done
  /-- So are factories. -/
  registerLazy : ∀ language factory, (r.perform (.registerLazy language factory)).answer
    = if r.contains language then .error (.alreadyRegistered language) else .ok .done
  /-- An action that fails leaves no trace: the languages are the same, and so is everything that
  can be seen of later actions. -/
  failure : ∀ action e, (r.perform action).answer = .error e →
    (r.perform action).registry.contains = r.contains ∧
      (r.perform action).registry.languages = r.languages ∧
      ∀ later, (r.perform action).registry.observe later = r.observe later
  /-- Until a language is removed, at most one call of a factory for it is accepted, and no factory
  is called for it after that. -/
  calls : ∀ language (later : List Action),
    (∀ action ∈ later, action.removes language = false) →
      ∃ new, (r.after later).calls = r.calls ++ new ∧ AcceptsOnce language new

theorem get_eq_none_iff : (r.get language).2 = .ok none ↔ r.contains language = false := by
  refine ⟨fun h => ?_, fun h => by rw [get_of_contains h]⟩
  have hfetched := r.fetched_get language
  generalize r.get language = fetched at hfetched h
  cases hfetched with
  | missing hcontains => exact hcontains
  | ready => cases h
  | made => cases h
  | failed => cases h

/-- **Every history of a new registry keeps its guarantees.** -/
theorem guarantees_after (actions : List Action) :
    (({} : ParserRegistry).after actions).Guarantees := by
  have hkeys : (({} : ParserRegistry).after actions).keys.Nodup :=
    nodup_keys_after (r := {}) List.nodup_nil actions
  generalize ({} : ParserRegistry).after actions = r at hkeys
  refine
    { ready?_or_factory? := ready?_or_factory?_eq_none hkeys
      mem_languages := fun _ => mem_languages
      nodup_languages := nodup_languages hkeys
      get_eq_none := fun _ => get_eq_none_iff
      language_of_get := fun language parser h => language_of_ready? (ready?_get h)
      get_again := ?_
      register := fun parser => answer_of_registers? rfl
      registerLazy := fun language factory => answer_of_registers? rfl
      failure := ?_
      calls := ?_ }
  · intro language parser h later hlater
    rw [get_of_ready (ready?_after (ready?_get h) hlater)]
  · intro action e h
    have hsame := withoutCalls_perform_of_error h
    refine ⟨contains_eq_of_withoutCalls hsame, languages_eq_of_withoutCalls hsame,
      fun later => ?_⟩
    rw [← observe_withoutCalls, hsame, observe_withoutCalls]
  · intro language later hlater
    obtain ⟨new, hnew, honce, -⟩ := r.calls_after hlater
    exact ⟨new, hnew, honce⟩

/-- A factory that fails is called again, and one that is accepted is not. -/
example :
    (({} : ParserRegistry).after
        [.registerLazy .go { product := .error (.noGrammar .go) }, .get .go, .get .go,
          .registerLazy .java (.standard .java), .get .java, .get .java]).calls.map (·.1)
      = [.go, .go, .java] := by decide

end CodeAtlas.ParserRegistry
