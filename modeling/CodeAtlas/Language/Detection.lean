import CodeAtlas.Address
import CodeAtlas.Text.Lowercase

/-!
# The language of a file

A file is recognised by its extension alone, in any case. The file may be named by a path or by a
`file://` address; of an address the path counts, without query and fragment and with its escapes
resolved.
-/

namespace CodeAtlas.Language

/-! ## Extensions -/

/-- The extension of a path: the last dot and what follows it, in lower case. A dot at the very
end or before a separator opens none. -/
def extensionOfPath (path : List Char) : List Char :=
  let tail := Text.afterLast '.' path
  if path.contains '.' && tail ≠ [] && !tail.any (fun c => c == '/' || c == '\\') then
    Text.lower ('.' :: tail)
  else []

/-! ## Detection -/

/-- The extension of a file named by path or address. -/
def extensionOf (file : String) : Except Failure String :=
  (Address.path? file.toList).map fun path =>
    String.ofList (extensionOfPath (path.getD file.toList))

/-- The language of a file named by path or address. -/
def ofFile (file : String) : Except Failure (Option Language) :=
  (extensionOf file).map ofExtension?

/-- The language of a file named by its path. -/
def ofPath? (path : String) : Option Language :=
  ofExtension? (String.ofList (extensionOfPath path.toList))

/-- Where a file is no address, its path alone decides. -/
theorem ofFile_of_path {file : String}
    (h : Text.dropStart? ['f', 'i', 'l', 'e', ':', '/', '/'] file.toList = none) :
    ofFile file = .ok (ofPath? file) := by
  simp [ofFile, extensionOf, Address.path?, h, ofPath?, Except.map]

end CodeAtlas.Language
