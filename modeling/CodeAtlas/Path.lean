import CodeAtlas.Text.Slice

/-!
# Paths

Paths are texts with `/` between segments. The normal form of a path has no `.` segment, no empty
segment, and `..` only as far as it climbs above a relative start. Two slashes in front are kept
apart from one; three or more count as one.
-/

namespace CodeAtlas.Path

/-- The text between two slashes. -/
abbrev Segment := List Char

/-- How many slashes the normal form starts with. -/
def rootSlashes : List Char → Nat
  | '/' :: '/' :: '/' :: _ => 1
  | '/' :: '/' :: _ => 2
  | '/' :: _ => 1
  | _ => 0

/-- One segment more on a stack of segments, the last on top. -/
def pushSegment (rooted : Bool) (stack : List Segment) (seg : Segment) : List Segment :=
  if seg == [] || seg == ['.'] then stack
  else if seg == ['.', '.'] then
    match stack with
    | [] => if rooted then [] else [seg]
    | top :: below => if top == ['.', '.'] then seg :: stack else below
  else seg :: stack

/-- The segments that are left after every `.` and every name followed by `..` has gone. -/
def reduce (rooted : Bool) (segs : List Segment) : List Segment :=
  (segs.foldl (pushSegment rooted) []).reverse

/-- The normal form of a path whose separators are slashes. -/
def normalizeChars (cs : List Char) : List Char :=
  let slashes := rootSlashes cs
  let body := Text.joinWith ['/'] (reduce (slashes != 0) (Text.splitAt '/' cs))
  match List.replicate slashes '/' ++ body with
  | [] => ['.']
  | path => path

/-- The normal form of a path. Backslashes count as slashes, and the empty path stays empty. -/
def normalize (path : String) : String :=
  if path.isEmpty then path
  else String.ofList (normalizeChars (Text.replaceChar '\\' '/' path.toList))

/-- The directory part of a path: what stands before the last slash, or the leading slashes if
nothing else does. -/
def dirname (path : String) : String :=
  let head := (path.toList.reverse.dropWhile (· != '/')).reverse
  if head.all (· == '/') then String.ofList head
  else String.ofList (Text.dropEndWhile (· == '/') head)

/-- The last segment of a path. -/
def basename (path : String) : String :=
  String.ofList (Text.afterLast '/' path.toList)

/-- A path that starts at the root. -/
def isAbsolute (path : String) : Bool :=
  path.toList.head? == some '/'

/-- A path below another. A second path that starts at the root stands alone. -/
def join (base path : String) : String :=
  if isAbsolute path then path
  else if base.isEmpty || base.toList.getLast? == some '/' then base ++ path
  else base ++ "/" ++ path

/-- Several paths, each below the one before. -/
def joinAll (base : String) (paths : List String) : String :=
  paths.foldl join base

/-- Cuts the last extension off a path. Dots in front of a file name belong to the name. -/
def splitExtension (path : String) : String × String :=
  let cs := path.toList
  let file := Text.afterLast '/' cs
  let extension := Text.afterLast '.' file
  let stem := file.take (file.length - extension.length - 1)
  if file.contains '.' && stem.any (· != '.') then
    (String.ofList (cs.take (cs.length - extension.length - 1)),
     String.ofList ('.' :: extension))
  else (path, "")

/-- The path without its leading slashes. -/
def dropRoot (path : String) : String :=
  Text.onString (·.dropWhile (· == '/')) path

end CodeAtlas.Path
