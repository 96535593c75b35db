import CodeAtlas.Text.Slice

/-!
# Names in source text

Names come with qualifiers, type arguments and quotation marks around them. These functions cut
them down to what declarations are known by.
-/

namespace CodeAtlas.Syntax

/-- The name without its qualifiers: `a.b.User` is `User`. -/
def lastSegment (name : String) : String :=
  Text.onString (Text.afterLast '.') name

/-- The name of a type without type arguments and qualifiers: `ns.Repo<User>` is `Repo`. -/
def typeHead (type : String) : String :=
  Text.onString (fun cs => Text.afterLast '.' (Text.trim (Text.beforeFirst '<' cs))) type

/-- A string literal without the quotation marks or backticks around it. -/
def stripQuotes (literal : String) : String :=
  Text.onString (fun cs =>
    match cs with
    | c :: rest =>
      if rest.getLast? == some c && (c == '\'' || c == '"' || c == '\x60') then rest.dropLast
      else cs
    | [] => cs) literal

/-- The name without the number signs in front that mark it as private. -/
def stripPrivateMark (name : String) : String :=
  Text.onString (·.dropWhile (· == '#')) name

/-- A text, nothing if it is empty. -/
def nonempty? (s : String) : Option String :=
  if s.isEmpty then none else some s

end CodeAtlas.Syntax
