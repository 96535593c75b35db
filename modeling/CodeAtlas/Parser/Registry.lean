import CodeAtlas.Failure

/-!
# Parsers by language

A language has at most one entry: a parser that is ready, or a factory that makes one when it is
first asked for. A factory that fails, or makes a parser for another language, keeps its place and
is called again the next time.
-/

namespace CodeAtlas

/-- A parser for the files of a language. -/
structure Parser where
  language : Language
  /-- Tells the parsers of a registry apart. -/
  serial : Nat
  deriving DecidableEq, Repr, Inhabited

/-- What makes a parser on demand. -/
structure ParserFactory where
  /-- What a call gives: the language of the parser it makes. -/
  product : Except Failure Language
  /-- Whether it is one of those that a new registry is furnished with. -/
  isStandard : Bool := false
  deriving Inhabited

namespace ParserFactory

/-- The language of a new parser for some language: the same, if it has a grammar. -/
def productFor (language : Language) : Except Failure Language :=
  if language.isParsed then .ok language else .error (.noGrammar language)

/-- The factory that a registry is furnished with for a language. -/
def standard (language : Language) : ParserFactory :=
  { product := productFor language, isStandard := true }

end ParserFactory

/-- The parsers at hand. -/
structure ParserRegistry where
  /-- Parsers that are ready, in the order in which they became so. -/
  ready : List Parser := []
  /-- Factories that wait for their first success, in the order in which they came. -/
  pending : List (Language × ParserFactory) := []
  /-- How many parsers have been made. -/
  made : Nat := 0
  /-- Every call of a factory so far, with the language it was asked for. -/
  calls : List (Language × ParserFactory) := []
  deriving Inhabited

namespace ParserRegistry

/-! ## Queries -/

/-- The parser that is ready for a language. -/
def ready? (r : ParserRegistry) (language : Language) : Option Parser :=
  r.ready.find? (·.language == language)

/-- The factory that waits for a language. -/
def factory? (r : ParserRegistry) (language : Language) : Option ParserFactory :=
  (r.pending.find? (·.1 == language)).map (·.2)

/-- Whether a language has an entry. -/
def contains (r : ParserRegistry) (language : Language) : Bool :=
  (r.ready? language).isSome || (r.factory? language).isSome

/-- The languages with an entry: those whose parsers are ready, then those that wait. -/
def languages (r : ParserRegistry) : List Language :=
  let ready := r.ready.map (·.language)
  ready ++ (r.pending.map (·.1)).filter (!ready.contains ·)

/-! ## Entries -/

/-- Adds a parser that is ready. -/
def add (r : ParserRegistry) (parser : Parser) : Except Failure ParserRegistry :=
  if r.contains parser.language then .error (.alreadyRegistered parser.language)
  else .ok { r with ready := r.ready ++ [parser] }

/-- Makes a parser for a language and adds it. -/
def register (r : ParserRegistry) (language : Language) : Except Failure ParserRegistry :=
  if language.isParsed then { r with made := r.made + 1 }.add ⟨language, r.made⟩
  else .error (.noGrammar language)

/-- Adds a factory. -/
def registerLazy (r : ParserRegistry) (language : Language) (factory : ParserFactory) :
    Except Failure ParserRegistry :=
  if r.contains language then .error (.alreadyRegistered language)
  else .ok { r with pending := r.pending ++ [(language, factory)] }

/-- Adds the standard factories of some languages in turn, up to the first that has an entry. -/
def furnishWith (r : ParserRegistry) :
    List Language → ParserRegistry × Except Failure Unit
  | [] => (r, .ok ())
  | language :: rest =>
    match r.registerLazy language (.standard language) with
    | .ok r => r.furnishWith rest
    | .error e => (r, .error e)

/-- Adds the standard factories of all languages with a grammar. -/
def furnish (r : ParserRegistry) : ParserRegistry × Except Failure Unit :=
  r.furnishWith Language.parsed

/-- The registry that is furnished with the standard factories. -/
def standard : ParserRegistry :=
  (furnish {}).1

/-- Removes the entry of a language, and tells whether there was one. -/
def unregister (r : ParserRegistry) (language : Language) : ParserRegistry × Bool :=
  ({ r with
      ready := r.ready.filter (·.language != language)
      pending := r.pending.filter (·.1 != language) },
    r.contains language)

/-- Removes every entry. -/
def clear (r : ParserRegistry) : ParserRegistry :=
  { r with ready := [], pending := [] }

/-! ## Parsers on demand -/

/-- Calls a factory. If it makes a parser for the language asked for, that parser takes its
place. -/
def materialize (r : ParserRegistry) (language : Language) (factory : ParserFactory) :
    ParserRegistry × Except Failure Parser :=
  let called := { r with calls := r.calls ++ [(language, factory)] }
  match factory.product with
  | .error e => (called, .error e)
  | .ok actual =>
    if actual == language then
      let parser : Parser := ⟨language, r.made⟩
      ({ called with
          ready := r.ready ++ [parser]
          pending := r.pending.filter (·.1 != language)
          made := r.made + 1 },
        .ok parser)
    else (called, .error (.parserMismatch language actual))

/-- The parser of a language, made now if a factory waits for it; none without an entry. -/
def get (r : ParserRegistry) (language : Language) :
    ParserRegistry × Except Failure (Option Parser) :=
  match r.ready? language, r.factory? language with
  | some parser, _ => (r, .ok (some parser))
  | none, some factory =>
    let (r, made) := r.materialize language factory
    (r, made.map some)
  | none, none => (r, .ok none)

/-- Whether asking for the parser of a language makes one. -/
def makesNow (r : ParserRegistry) (language : Language) : Bool :=
  (r.ready? language).isNone &&
    match r.factory? language with
    | some factory =>
      match factory.product with
      | .ok actual => actual == language
      | .error _ => false
    | none => false

end ParserRegistry

end CodeAtlas
