import CodeAtlas.Language.Basic
import CodeAtlas.Text.Slice
import CodeAtlas.Text.Word

/-!
# Declared names

The names of the types that a source declares, found without parsing. A declaration is a form that
stands at the start of a line: modifiers, a keyword and a capitalised name. Each language has a few
forms, and each is looked for through the whole text in turn.
-/

namespace CodeAtlas.Index

/-! ## Pieces of a form

Each piece takes some characters off the front of a text and leaves the rest. -/

/-- At least one blank. -/
def blanks? (cs : List Char) : Option (List Char) :=
  match cs with
  | c :: rest => if Text.isBlank c then some (rest.dropWhile Text.isBlank) else none
  | [] => none

/-- A word with blanks after it. -/
def word? (word : String) (cs : List Char) : Option (List Char) :=
  (Text.dropStart? word.toList cs).bind blanks?

/-- One of some words with blanks after it. -/
def oneOf? (words : List String) (cs : List Char) : Option (List Char) :=
  words.findSome? fun word => word? word cs

/-- Some words, each with blanks after it, of which any may be missing. -/
def optional (words : List String) (cs : List Char) : List Char :=
  words.foldl (fun cs word => (word? word cs).getD cs) cs

/-- As many of some words as there are, each with blanks after it. -/
def many (words : List String) : Nat → List Char → List Char
  | 0, cs => cs
  | fuel + 1, cs =>
    match oneOf? words cs with
    | some rest => many words fuel rest
    | none => cs

/-- A name that opens with a capital letter and goes on with characters of a class. -/
def name? (goesOn : Char → Bool) (cs : List Char) : Option (String × List Char) :=
  match cs with
  | c :: rest =>
    if c.isUpper then
      some (String.ofList (c :: rest.takeWhile goesOn), rest.dropWhile goesOn)
    else none
  | [] => none

/-- The blanks that indent a line. -/
def indent (cs : List Char) : List Char :=
  cs.dropWhile fun c => c == ' ' || c == '\t'

/-! ## Forms -/

/-- A form of declaration: what it takes off the front of a line gives a name, and leaves the rest
of the text. -/
abbrev Form := List Char → Option (String × List Char)

/-- The characters of a name in a script file. -/
def isScriptNameChar (c : Char) : Bool :=
  Text.isWord c || c == '$'

/-- A script declaration: modifiers of which any may be missing, a keyword, and a name. -/
def scriptForm (modifiers : List String) (keyword : String) : Form := fun cs =>
  (word? keyword (optional modifiers (indent cs))).bind (name? isScriptNameChar)

/-- A class. -/
def scriptClass : Form :=
  scriptForm ["export", "default", "declare", "abstract"] "class"

/-- An interface. -/
def scriptInterface : Form :=
  scriptForm ["export", "declare"] "interface"

/-- An enumeration. -/
def scriptEnum : Form :=
  scriptForm ["export", "declare", "const"] "enum"

/-- Type parameters in angle brackets, up to the first equals sign after them. -/
def typeParameters? (cs : List Char) : Option (List Char) :=
  match cs with
  | '<' :: rest =>
    let inner := Text.dropEndWhile Text.isBlank (Text.beforeFirst '=' rest)
    if inner.getLast? == some '>' then some (rest.dropWhile (· != '=')) else none
  | _ => some cs

/-- A type alias: a name, which type parameters may follow, and an equals sign. -/
def scriptAlias : Form := fun cs => do
  let (name, rest) ← scriptForm ["export", "declare"] "type" cs
  match ← typeParameters? (rest.dropWhile Text.isBlank) with
  | '=' :: rest => some (name, rest)
  | _ => none

/-- The modifiers of a Java type. -/
def javaModifiers : List String :=
  ["public", "protected", "private", "abstract", "final", "static", "sealed", "non-sealed",
   "strictfp"]

/-- A type in a Java file. -/
def javaType : Form := fun cs =>
  (oneOf? ["class", "interface", "enum", "record"]
    (many javaModifiers cs.length (indent cs))).bind (name? Text.isWord)

/-- A class at the left margin of a Python file. -/
def pythonClass : Form := fun cs =>
  (word? "class" cs).bind (name? Text.isWord)

/-- The forms of a language. -/
def forms : Language → List Form
  | .typescript => [scriptClass, scriptInterface, scriptAlias, scriptEnum]
  | .javascript => [scriptClass]
  | .java => [javaType]
  | .python => [pythonClass]
  | .go => []

/-! ## Scans -/

/-- The names that a form finds at line starts. What a declaration has taken is not looked at
again: so many characters are skipped. -/
def namesFrom (form : Form) (atLineStart : Bool) (skip : Nat) : List Char → List String
  | [] => []
  | c :: rest =>
    match skip with
    | skip + 1 => namesFrom form (c == '\n') skip rest
    | 0 =>
      match if atLineStart then form (c :: rest) else none with
      | some (name, after) =>
        name :: namesFrom form (c == '\n') (rest.length - after.length) rest
      | none => namesFrom form (c == '\n') 0 rest

/-- The names that a source declares, each once, form by form. -/
def declaredNames (language : Option Language) (text : String) : List String :=
  match language with
  | none => []
  | some language =>
    ((forms language).flatMap fun form => namesFrom form true 0 text.toList).eraseDups

end CodeAtlas.Index
