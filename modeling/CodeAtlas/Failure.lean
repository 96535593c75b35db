import CodeAtlas.Json.Literal
import CodeAtlas.Json.Reader
import CodeAtlas.Language.Basic

/-!
# Failures

Why an operation gives no result. Causes that lie in the files analysed stand beside those that
lie in how the analysis was called; `message` says each in words.
-/

namespace CodeAtlas

/-- The cause of a failure. -/
inductive Failure where
  /-- The extension belongs to no language. -/
  | unsupportedFile (path : String)
  /-- The language is recognised but nothing reads it. -/
  | noParser (language : Language) (path : String)
  /-- The source has a syntax error on a line: a missing token, or something unexpected. -/
  | syntaxError (path : String) (line : Nat) (missing : Bool)
  /-- There is no file at the path. -/
  | fileNotFound (path : String)
  /-- The file is there but cannot be read. -/
  | unreadable (reason : String)
  /-- A path holds the null character, which no file system takes. -/
  | nullInPath
  /-- A path, or one of the names in it, is longer than a file system allows. -/
  | pathTooLong (path : String)
  /-- The bytes of the file are no UTF-8 text. -/
  | undecodable
  /-- An array or an object in the settings lies too deep in others. -/
  | nestedTooDeep (isArray : Bool)
  /-- A whole number in the settings has too many digits. -/
  | tooManyDigits (digits : Nat)
  /-- The language has a parser already. -/
  | alreadyRegistered (language : Language)
  /-- A parser factory made a parser for another language. -/
  | parserMismatch (expected actual : Language)
  /-- The language has no grammar, so no parser can be made for it. -/
  | noGrammar (language : Language)
  /-- The depth of a traversal is not a natural number. -/
  | invalidDepth (value : Json)
  /-- A name stands for no member of an enumeration. -/
  | unknownMember (enumeration : String) (value : Json)
  /-- A glob pattern cannot be read. -/
  | malformedPattern (pattern : String)
  /-- A range in a bracket of a glob pattern ends before it starts. The offset is one in the written
  expression of the pattern; line and column are given if the expression has several lines. -/
  | reversedRange (range : String) (offset : Nat) (place : Option (Nat × Nat))
  /-- The brackets of a file address are not where they belong. -/
  | malformedAddress
  /-- A host in brackets is in neither form of numeric hosts. -/
  | unknownHost (host : String)
  /-- A host in brackets is in the form that takes none. -/
  | bracketedIPv4
  /-- A host in brackets announces a form to come and does not keep to it. -/
  | malformedFutureHost
  /-- The authority of a file address holds a character that passes for a separator. -/
  | deceptiveAuthority (authority : String)

namespace Failure

/-- The failure in words. -/
def message : Failure → String
  | unsupportedFile path => s!"Unsupported file type: {path}"
  | noParser language path =>
    let place := if path.isEmpty then "" else s!" (file: {path})"
    s!"No parser available for language: {language.name}{place}"
  | syntaxError path line missing =>
    let detail := if missing then "missing token" else "unexpected syntax"
    s!"Failed to parse {path}:{line}: {detail}"
  | fileNotFound path => s!"File not found: {path}"
  | unreadable reason => reason
  | nullInPath => "embedded null byte"
  | pathTooLong path =>
    let shown := Text.quoted path
    s!"[Errno 36] File name too long: {shown}"
  | undecodable => "not UTF-8 text"
  | nestedTooDeep isArray =>
    let container := if isArray then "array" else "object"
    s!"maximum recursion depth exceeded while decoding a JSON {container} from a unicode string"
  | tooManyDigits digits =>
    let limit := Json.digitLimit
    s!"Exceeds the limit ({limit} digits) for integer string conversion: value has {digits} " ++
      "digits; use sys.set_int_max_str_digits() to increase the limit"
  | alreadyRegistered language =>
    s!"Parser for language '{language.name}' is already registered"
  | parserMismatch expected actual =>
    s!"Lazy parser factory for '{expected.name}' produced a parser for '{actual.name}'"
  | noGrammar language => s!"No tree-sitter configuration for '{language.name}'"
  | invalidDepth value => s!"depth must be a non-negative integer, got {value.literal}"
  | unknownMember enumeration value => s!"{value.literal} is not a valid {enumeration}"
  | malformedPattern pattern => s!"Invalid git pattern: {Text.quoted pattern}"
  | reversedRange range offset place =>
    let detail := match place with
      | some (line, column) => s!" (line {line}, column {column})"
      | none => ""
    s!"bad character range {range} at position {offset}{detail}"
  | malformedAddress => "Invalid IPv6 URL"
  | unknownHost host =>
    let shown := Text.quoted host
    s!"{shown} does not appear to be an IPv4 or IPv6 address"
  | bracketedIPv4 => "An IPv4 address cannot be in brackets"
  | malformedFutureHost => "IPvFuture address is invalid"
  | deceptiveAuthority authority =>
    s!"netloc '{authority}' contains invalid characters under NFKC normalization"

end Failure

end CodeAtlas
