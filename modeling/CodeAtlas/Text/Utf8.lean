/-!
# Reading bytes as text

UTF-8 with repairs: every maximal piece of bytes that begins a character but does not finish it,
and every byte that can begin none, is read as one U+FFFD. Well-formed bytes read as themselves.
-/

namespace CodeAtlas.Text

/-- What a lead byte announces: how many bytes follow, the bits of the lead itself, and the range
of the byte right after it. The range keeps out overlong forms, surrogates and code points past
the last. -/
def leadShape (b : UInt8) : Option (Nat × Nat × UInt8 × UInt8) :=
  let n := b.toNat
  if 0xc2 ≤ n && n ≤ 0xdf then some (1, n - 0xc0, 0x80, 0xbf)
  else if n == 0xe0 then some (2, 0, 0xa0, 0xbf)
  else if n == 0xed then some (2, 0xd, 0x80, 0x9f)
  else if 0xe1 ≤ n && n ≤ 0xef then some (2, n - 0xe0, 0x80, 0xbf)
  else if n == 0xf0 then some (3, 0, 0x90, 0xbf)
  else if n == 0xf4 then some (3, 4, 0x80, 0x8f)
  else if 0xf1 ≤ n && n ≤ 0xf3 then some (3, n - 0xf0, 0x80, 0xbf)
  else none

/-- Reads up to `count` continuation bytes, the first within `lo` and `hi`, onto the bits read so
far. The answer is the code point if none is missing, and how many bytes were taken. -/
def continuation (count bits taken : Nat) (lo hi : UInt8) : List UInt8 → Option Nat × Nat
  | [] => (if count == 0 then some bits else none, taken)
  | b :: rest =>
    match count with
    | 0 => (some bits, taken)
    | more + 1 =>
      if lo ≤ b && b ≤ hi then
        continuation more (bits * 64 + (b.toNat - 0x80)) (taken + 1) 0x80 0xbf rest
      else (none, taken)

/-- The text of a sequence of bytes. -/
def decodeLossy : List UInt8 → List Char
  | [] => []
  | b :: rest =>
    if b < 0x80 then Char.ofNat b.toNat :: decodeLossy rest
    else
      match leadShape b with
      | none => '\ufffd' :: decodeLossy rest
      | some (count, bits, lo, hi) =>
        match continuation count bits 0 lo hi rest with
        | (some code, taken) => Char.ofNat code :: decodeLossy (rest.drop taken)
        | (none, taken) => '\ufffd' :: decodeLossy (rest.drop taken)
termination_by bytes => bytes.length
decreasing_by all_goals simp only [List.length_cons, List.length_drop]; omega

/-- The text of a byte array: the array itself where it is well formed. -/
def decodeBytes (bytes : ByteArray) : String :=
  match String.fromUTF8? bytes with
  | some text => text
  | none => String.ofList (decodeLossy bytes.toList)

end CodeAtlas.Text
