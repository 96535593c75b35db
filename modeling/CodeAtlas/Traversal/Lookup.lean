import CodeAtlas.Declaration
import CodeAtlas.Index.Basic
import CodeAtlas.Specifier

/-!
# Looking up class names

A class name that no import accounts for is looked up among the source files of the project, its
scope. An index that the caller supplies spares reading the files it covers; for the files of the
scope that it does not cover there is a second index, and what it holds beyond the scope counts for
nothing.
-/

namespace CodeAtlas.Traversal

/-- The files that names are looked up in, with the indexes that cover them. -/
structure Lookup where
  /-- The source files of the project in the order of discovery. -/
  scope : List String
  indexes : List ImportIndex
  deriving Inhabited

namespace Lookup

/-! ## Preparation -/

/-- What preparing a lookup gives besides the lookup itself. -/
structure Preparation where
  lookup : Lookup
  /-- The supplied index, built by now. -/
  supplied : Option ImportIndex
  /-- What is reported. -/
  lines : List Log.Line
  deriving Inhabited

/-- A supplied index, built from the whole project if it has not been built. -/
def supply (view : FileView) (index : ImportIndex) : ImportIndex × List Log.Line :=
  if index.isBuilt then (index, [])
  else
    let scan := ImportIndex.build view {}
    (scan.index, scan.lines)

/-- The index of the files that a supplied index does not cover. -/
def complete (view : FileView) (missing : List String) : ImportIndex × List Log.Line :=
  let scan := ImportIndex.indexFiles view {} missing
  let count := missing.length
  (scan.index,
    ⟨.debug, s!"[CrossFileAnalyzer] Indexing {count} files outside supplied index"⟩ :: scan.lines)

/-- Prepares the lookup in a scope. -/
def prepare (view : FileView) (scope : List String) (supplied : Option ImportIndex) :
    Preparation :=
  match supplied with
  | none =>
    let (index, lines) := complete view scope
    ⟨⟨scope, [index]⟩, none, lines⟩
  | some index =>
    let (index, lines) := supply view index
    match scope.filter (!index.covers ·) with
    | [] => ⟨⟨scope, [index]⟩, some index, lines⟩
    | missing =>
      let (extra, more) := complete view missing
      ⟨⟨scope, [index, extra]⟩, some index, lines ++ more⟩

/-! ## Queries -/

/-- The files of the scope that declare a name, in its order. -/
def declarers (lookup : Lookup) (name : String) : List String :=
  lookup.scope.filter fun path => lookup.indexes.any fun index => (index.resolve name).contains path

/-- The modules that a name may come from: those imported by that name, then those of which
everything is imported. -/
def sourcesOf (name : String) (imports : List Import) : List String :=
  let named := (imports.filter fun i => i.specifiers.contains name || i.asName == some name).map
    (·.source)
  let whole := (imports.filter fun i => i.isNamespace && (i.asName.getD "").isEmpty).map (·.source)
  named ++ whole.filter (!named.contains ·)

/-- Whether a path is another or ends with it as segments. -/
def endsWith (path ending : String) : Bool :=
  path == ending || ('/' :: ending.toList).isSuffixOf path.toList

/-- Whether a file may be what a hint at a module means: it, or the directory that it stands
for. -/
def fits (hint path : String) : Bool :=
  let stem := (Path.splitExtension path).1
  endsWith stem hint || endsWith (Path.dirname stem) hint

/-- The file among some that a module hints at. -/
def hinted? (candidates : List String) (source : String) : Option String :=
  let hint := Specifier.hint source
  if hint.isEmpty then none else candidates.find? (fits hint)

/-- The file that a name in a file stands for: of the other files that declare it the first in the
same directory, else the first that an import hints at, else the first. -/
def choose? (lookup : Lookup) (path name : String) (imports : List Import) : Option String :=
  let candidates := (lookup.declarers name).filter (· != path)
  let nearby := candidates.find? fun c => Path.dirname c == Path.dirname path
  (nearby.or ((sourcesOf name imports).findSome? (hinted? candidates))).or candidates.head?

end Lookup

end CodeAtlas.Traversal
