import CodeAtlas.Language.Detection
import CodeAtlas.Path

/-!
# Module specifiers

What stands between the quotes of an import. A relative specifier opens with a dot and names a
file by its place next to the importing file, mostly without its extension, so that several files
may be meant; `candidates` lists them, the likeliest first. Other specifiers name packages and are
not followed.
-/

namespace CodeAtlas.Specifier

/-- Whether a specifier starts from the importing file. -/
def isRelative (specifier : String) : Bool :=
  specifier.toList.head? == some '.'

/-- Whether a specifier is a path that starts with `.` or `..` as a segment. -/
def isDotPath (specifier : String) : Bool :=
  let cs := specifier.toList
  (Text.dropStart? ['.', '/'] cs).isSome || (Text.dropStart? ['.', '.', '/'] cs).isSome

/-! ## Files that a path may mean -/

/-- What may be missing from a path at its end, beginning with nothing. -/
def fileEndings : List String :=
  ["", ".ts", ".tsx", ".js", ".jsx", ".mts", ".cts", ".mjs", ".cjs", ".java", ".py"]

/-- The sources that may stand behind a compiled file of an extension. -/
def sourceEndings (extension : String) : List String :=
  match extension with
  | ".js" => [".ts", ".tsx"]
  | ".jsx" => [".tsx"]
  | ".mjs" => [".mts"]
  | ".cjs" => [".cts"]
  | _ => []

/-- The files that stand for their directory. -/
def directoryFiles : List String :=
  ["index.ts", "index.tsx", "index.js", "index.jsx", "__init__.py"]

/-- The files that a path may mean: itself with and without an extension, the source behind it,
and the file that stands for it as a directory. -/
def pathCandidates (directory specifier : String) : List String :=
  let base := Path.normalize (Path.join directory specifier)
  let (stem, extension) := Path.splitExtension base
  fileEndings.map (base ++ ·) ++ (sourceEndings extension).map (stem ++ ·) ++
    directoryFiles.map (Path.join base)

/-! ## Files that a dotted module may mean -/

/-- The directory some levels up. -/
def climb (directory : String) : Nat → String
  | 0 => directory
  | levels + 1 => climb (Path.dirname directory) levels

/-- The files that a dotted module may mean. The first dot stands for the directory, each further
dot for one level up. Without a name the package itself is meant. -/
def moduleCandidates (directory specifier : String) : List String :=
  let dots := specifier.toList.takeWhile (· == '.')
  let name := specifier.toList.dropWhile (· == '.')
  let target := climb directory (dots.length - 1)
  if name.isEmpty then [Path.normalize (Path.join target "__init__.py")]
  else
    let segments := (Text.splitAt '.' name).map String.ofList
    let base := Path.normalize (Path.joinAll target segments)
    [base ++ ".py", base ++ ".pyi", Path.join base "__init__.py"]

/-! ## Candidates -/

/-- The files that a relative specifier may mean in a file of some language, the likeliest
first. -/
def candidates (language : Option Language) (importer specifier : String) : List String :=
  let directory := Path.dirname (Path.normalize importer)
  if !isRelative specifier then []
  else if language == some .python && !specifier.toList.contains '/' then
    moduleCandidates directory specifier
  else if isDotPath specifier || specifier == "." || specifier == ".." then
    pathCandidates directory specifier
  else []

/-- The files that a specifier may mean in a file named by path or address. -/
def candidatesIn (importer specifier : String) : Except Failure (List String) :=
  if !isRelative specifier then .ok []
  else (Language.ofFile importer).map fun language => candidates language importer specifier

/-- The first candidate that exists, in a file named by its path. -/
def resolve? (isFile : String → Bool) (importer specifier : String) : Option String :=
  (candidates (Language.ofPath? importer) importer specifier).find? isFile

/-! ## Hints -/

/-- The end of the path that a specifier suggests for its module. -/
def hint (specifier : String) : String :=
  let cs := specifier.toList
  if isDotPath specifier then
    let segments := (Text.splitAt '/' cs).filter fun seg =>
      !(seg == [] || seg == ['.'] || seg == ['.', '.'])
    String.ofList (Text.joinWith ['/'] segments)
  else
    let name := cs.dropWhile (· == '.')
    if name.contains '/' then String.ofList name
    else String.ofList (Text.replaceChar '.' '/' name)

end CodeAtlas.Specifier
