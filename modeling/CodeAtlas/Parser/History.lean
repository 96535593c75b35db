import CodeAtlas.Parser.Parsing

/-!
# Histories of a registry

A registry as a machine: an action is answered and leaves a registry. A history is a list of actions
on one registry, and its trace has the answer to each and the registry after it.
-/

namespace CodeAtlas.ParserRegistry

/-- What can be done with a registry. -/
inductive Action where
  /-- Registers a parser that is ready. -/
  | register (parser : Parser)
  /-- Registers a factory for a language. -/
  | registerLazy (language : Language) (factory : ParserFactory)
  /-- Asks for the parser of a language. -/
  | get (language : Language)
  /-- Asks for the parser of a file. -/
  | getForFile (path : String)
  /-- Removes the entry of a language. -/
  | unregister (language : Language)
  /-- Removes every entry. -/
  | clear

namespace Action

/-- The language that an action registers something for. -/
def registers? : Action → Option Language
  | register parser => some parser.language
  | registerLazy language _ => some language
  | _ => none

/-- Whether an action asks for a parser. -/
def asks : Action → Bool
  | get _ | getForFile _ => true
  | _ => false

/-- Whether an action removes the entry of a language. -/
def removes (language : Language) : Action → Bool
  | unregister other => other == language
  | clear => true
  | _ => false

end Action

/-- The answer to an action that succeeds, in terms of what stands for a parser. -/
inductive Answer (α : Type) where
  /-- Nothing to tell. -/
  | done
  /-- The parser that was asked for, if there is one. -/
  | found (parser : Option α)
  /-- Whether there was an entry to remove. -/
  | removed (wasThere : Bool)
  deriving DecidableEq, Repr

/-- The same answer in other terms. -/
def Answer.map {α β : Type} (f : α → β) : Answer α → Answer β
  | done => done
  | found parser => found (parser.map f)
  | removed wasThere => removed wasThere

/-- What an action comes to: its answer, and the registry after it. -/
structure Step where
  answer : Except Failure (Answer Parser)
  registry : ParserRegistry

/-- The step of a registration, which leaves the registry as it was when it fails. -/
def registration (r : ParserRegistry) : Except Failure ParserRegistry → Step
  | .ok after => ⟨.ok .done, after⟩
  | .error e => ⟨.error e, r⟩

/-- Does an action. -/
def perform (r : ParserRegistry) : Action → Step
  | .register parser => r.registration (r.add parser)
  | .registerLazy language factory => r.registration (r.registerLazy language factory)
  | .get language => ⟨(r.get language).2.map .found, (r.get language).1⟩
  | .getForFile path => ⟨(r.getForFile path).2.map .found, (r.getForFile path).1⟩
  | .unregister language => ⟨.ok (.removed (r.unregister language).2), (r.unregister language).1⟩
  | .clear => ⟨.ok .done, r.clear⟩

/-- The registry after a list of actions. -/
def after (r : ParserRegistry) (actions : List Action) : ParserRegistry :=
  actions.foldl (fun r action => (r.perform action).registry) r

/-- The steps of a list of actions. -/
def trace (r : ParserRegistry) : List Action → List Step
  | [] => []
  | action :: rest => r.perform action :: (r.perform action).registry.trace rest

end CodeAtlas.ParserRegistry
