import CodeAtlas.Address.Authority
import CodeAtlas.Text.Utf8

/-!
# File addresses

An address `file://` names a file by an authority and a path. The path ends at a question mark or
number sign, and its escapes stand for bytes of UTF-8 text.
-/

namespace CodeAtlas.Address

/-! ## Escapes -/

/-- A byte written as two hexadecimal digits. -/
def escapedByte? (a b : Char) : Option UInt8 := do
  let hi ← Text.hexValue? a
  let lo ← Text.hexValue? b
  pure (UInt8.ofNat (hi * 16 + lo))

/-- The bytes of a run of ASCII characters, with each escape read as its byte. -/
def unescapeRun : List Char → List UInt8
  | [] => []
  | '%' :: a :: b :: rest =>
    match escapedByte? a b with
    | some byte => byte :: unescapeRun rest
    | none => '%'.toUInt8 :: unescapeRun (a :: b :: rest)
  | c :: rest => c.toUInt8 :: unescapeRun rest

/-- The text with its escapes resolved. Each run of ASCII characters is decoded on its own, and
other characters stand for themselves. -/
def unescape : List Char → List Char
  | [] => []
  | c :: rest =>
    if c.toNat < 0x80 then
      Text.decodeLossy (unescapeRun (c :: rest.takeWhile (·.toNat < 0x80))) ++
        unescape (rest.dropWhile (·.toNat < 0x80))
    else c :: unescape rest
termination_by cs => cs.length
decreasing_by
  · have := Text.length_dropWhile_le (fun c : Char => decide (c.toNat < 0x80)) rest
    simp only [List.length_cons]
    omega
  · simp

/-! ## Paths -/

/-- A character that ends the authority. -/
def endsAuthority (c : Char) : Bool :=
  c == '/' || c == '?' || c == '#'

/-- The path of an address, given what follows `file://`. Tabs and line ends are no part of it. -/
def path (rest : List Char) : Except Failure (List Char) := do
  let rest := rest.filter fun c => !(c == '\t' || c == '\r' || c == '\n')
  checkAuthority (rest.takeWhile (!endsAuthority ·))
  let below := rest.dropWhile (!endsAuthority ·)
  pure (unescape (below.takeWhile fun c => !(c == '?' || c == '#')))

/-- The path of a file named by an address; none for any other name. -/
def path? (file : List Char) : Except Failure (Option (List Char)) :=
  match Text.dropStart? ['f', 'i', 'l', 'e', ':', '/', '/'] file with
  | some rest => (path rest).map some
  | none => .ok none

end CodeAtlas.Address
