import CodeAtlas.Language.Detection
import CodeAtlas.Log.Basic
import CodeAtlas.Outline.OfTree
import CodeAtlas.Parser.Registry

/-!
# Parsing a file

The extension of a file picks its language, the registry the parser, and a grammar engine delivers
the tree that the parser reads.
-/

namespace CodeAtlas

/-- A grammar engine: the syntax tree of a text, given the path of its file. -/
abbrev Grammar := String → String → Syntax.Node

/-- What a parser reports of an outline. -/
def Outline.logLine (o : Outline) : Log.Line :=
  let classes := o.classes.length
  let imports := o.imports.length
  ⟨.debug, s!"[TreeSitterParser] {o.path}: {classes} classes, {imports} imports"⟩

namespace ParserRegistry

/-- What is reported when asking for the parser of a language. -/
def getLines (r : ParserRegistry) (language : Language) : List Log.Line :=
  if r.makesNow language then
    [⟨.debug, s!"[ParserRegistry] Materialized lazy parser for {language.name}"⟩]
  else []

/-- The parser for a file, none if its extension belongs to no language. -/
def getForFile (r : ParserRegistry) (path : String) :
    ParserRegistry × Except Failure (Option Parser) :=
  match Language.ofFile path with
  | .error e => (r, .error e)
  | .ok none => (r, .ok none)
  | .ok (some language) =>
    match r.get language with
    | (r, .ok none) => (r, .error (.noParser language path))
    | found => found

/-- Whether files of a path can be parsed. -/
def canParse (r : ParserRegistry) (path : String) : Except Failure Bool :=
  (Language.ofFile path).map fun
    | some language => r.contains language
    | none => false

/-- What parsing a file gives: the registry afterwards, the outline, and what is reported. -/
structure Parsed where
  registry : ParserRegistry
  outline : Except Failure Outline
  lines : List Log.Line

/-- Parses a file, given its path and tree. -/
def parse (r : ParserRegistry) (path : String) (root : Syntax.Node) : Parsed :=
  match Language.ofFile path with
  | .error e => ⟨r, .error e, []⟩
  | .ok none => ⟨r, .error (.unsupportedFile path), []⟩
  | .ok (some language) =>
    match r.get language with
    | (after, .error e) => ⟨after, .error e, []⟩
    | (after, .ok none) => ⟨after, .error (.noParser language path), []⟩
    | (after, .ok (some parser)) =>
      match Outline.ofTree parser.language path root with
      | .error e => ⟨after, .error e, r.getLines language⟩
      | .ok outline => ⟨after, .ok outline, r.getLines language ++ [outline.logLine]⟩

end ParserRegistry

/-- Whether a parser reads the files of a path. -/
def Parser.reads (parser : Parser) (path : String) : Except Failure Bool :=
  (Language.ofFile path).map (· == some parser.language)

/-- The outline of a file, given its path and tree, with the standard parsers. -/
def Outline.ofFile (path : String) (root : Syntax.Node) : Except Failure Outline :=
  (ParserRegistry.standard.parse path root).outline

end CodeAtlas
