/-!
# Source languages

The languages that files are recognised as, and the file extensions that stand for them.
-/

namespace CodeAtlas

/-- A language that a file may be written in. -/
inductive Language where
  | typescript
  | javascript
  | java
  | python
  | go
  deriving DecidableEq, Repr, Inhabited

namespace Language

/-- The name of a language. -/
def name : Language → String
  | typescript => "typescript"
  | javascript => "javascript"
  | java => "java"
  | python => "python"
  | go => "go"

/-- Every language. -/
def all : List Language :=
  [typescript, javascript, java, python, go]

/-- The language of a name. -/
def ofName? (s : String) : Option Language :=
  all.find? fun l => l.name == s

/-- The extensions of source files, with their languages. -/
def extensionTable : List (String × Language) :=
  [(".ts", typescript), (".tsx", typescript), (".mts", typescript), (".cts", typescript),
   (".js", javascript), (".jsx", javascript), (".mjs", javascript), (".cjs", javascript),
   (".java", java),
   (".py", python), (".pyi", python), (".pyw", python),
   (".go", go)]

/-- The language of an extension in lower case with its dot. -/
def ofExtension? (extension : String) : Option Language :=
  (extensionTable.find? fun row => row.1 == extension).map (·.2)

/-- The extensions of a language. -/
def extensions (language : Language) : List String :=
  (extensionTable.filter fun row => row.2 == language).map (·.1)

/-- The languages with an extension, in the order of the table. -/
def recognised : List Language :=
  [typescript, javascript, java, python, go]

/-- The languages whose files are read as declarations. Files of other languages are only
recognised. -/
def parsed : List Language :=
  [typescript, javascript, java, python]

/-- Whether files of the language are read as declarations. -/
def isParsed (language : Language) : Bool :=
  parsed.contains language

theorem ofName?_name (l : Language) : ofName? l.name = some l := by
  cases l <;> decide

end Language

end CodeAtlas
