import CodeAtlas.Failure
import CodeAtlas.Json.Reader
import CodeAtlas.Settings.Basic

/-!
# The settings file

The settings lie in a file as one object. Where there is no such file, or it holds anything else,
the defaults apply. Bytes that are no text at all are a failure, and so is a value beyond the limits
of what can be read.
-/

namespace CodeAtlas

/-- What is found under the path of the settings. -/
inductive SettingsFile where
  | missing
  | directory
  | content (bytes : List UInt8)

namespace SettingsFile

/-- The text of UTF-8 bytes, with line feeds as the only line ends. -/
def decode? (bytes : List UInt8) : Option String :=
  (String.fromUTF8? ⟨bytes.toArray⟩).map (Text.onString Text.unixNewlines)

/-- The settings that a text stands for, with room for so many levels of nesting. -/
def ofText (room : Nat) (text : String) : Except Failure Settings :=
  match Json.ofText text room with
  | .ok (.obj members) => .ok (Settings.ofJson (.obj members))
  | .ok _ | .error .malformed => .ok {}
  | .error (.tooDeep isArray) => .error (.nestedTooDeep isArray)
  | .error (.tooLong digits) => .error (.tooManyDigits digits)

/-- Loads the settings, with room for so many levels of nesting. -/
def load (file : SettingsFile) (room : Nat := 990) : Except Failure Settings :=
  match file with
  | missing => .ok {}
  | directory => .ok {}
  | content bytes =>
    match decode? bytes with
    | some text => ofText room text
    | none => .error .undecodable

end SettingsFile

end CodeAtlas
