import CodeAtlas.Text.Hex
import CodeAtlas.Text.Slice

/-!
# Numeric hosts

The written forms of internet addresses: four decimal numbers between dots, or eight groups of
hexadecimal digits between colons. Of the second form one run of groups may be left out, where two
colons meet; the last two groups may be written in the first form; and a zone may follow.
-/

namespace CodeAtlas.Address

/-! ## Four numbers -/

/-- The number that decimal digits stand for. -/
def decimalValue (digits : List Char) : Nat :=
  digits.foldl (fun n d => n * 10 + (d.toNat - 0x30)) 0

/-- A number below 256 in decimal, without needless zeros in front. -/
def isOctet (cs : List Char) : Bool :=
  !cs.isEmpty && cs.length ≤ 3 && cs.all Char.isDigit && (cs == ['0'] || cs.head? != some '0') &&
    decimalValue cs < 256

/-- Four numbers between dots. -/
def isIPv4 (cs : List Char) : Bool :=
  let parts := Text.splitAt '.' cs
  parts.length == 4 && parts.all isOctet

/-! ## Eight groups -/

/-- One to four hexadecimal digits. -/
def isGroup (cs : List Char) : Bool :=
  !cs.isEmpty && cs.length ≤ 4 && cs.all Text.isHexDigit

/-- The parts of a text between colons; the empty text has none. -/
def colonParts (cs : List Char) : List (List Char) :=
  if cs.isEmpty then [] else Text.splitAt ':' cs

/-- How many groups the parts stand for. Four numbers at the end stand for two. -/
def groupCount? : List (List Char) → Option Nat
  | [] => some 0
  | [part] => if isGroup part then some 1 else if isIPv4 part then some 2 else none
  | part :: parts => if isGroup part then (groupCount? parts).map (· + 1) else none

/-- What stands before and after the first two colons that meet. -/
def splitAtGap? : List Char → Option (List Char × List Char)
  | [] => none
  | ':' :: ':' :: rest => some ([], rest)
  | c :: rest => (splitAtGap? rest).map fun (before, after) => (c :: before, after)

/-- Eight groups, or fewer and a gap for the others. -/
def isGroups (cs : List Char) : Bool :=
  match splitAtGap? cs with
  | none => groupCount? (colonParts cs) == some 8
  | some (before, after) =>
    let parts := colonParts before
    parts.all isGroup && (groupCount? (colonParts after)).any (parts.length + · < 8)

/-- Eight groups with or without a zone. A zone follows a percent sign and holds no other. -/
def isIPv6 (cs : List Char) : Bool :=
  isGroups (Text.beforeFirst '%' cs) &&
    match cs.dropWhile (· != '%') with
    | [] => true
    | _ :: zone => !zone.isEmpty && !zone.contains '%'

/-! ## Forms to come -/

/-- The letter v, a version in hexadecimal, a dot, and something after it. -/
def isFutureForm (cs : List Char) : Bool :=
  match cs with
  | 'v' :: rest =>
    match rest.takeWhile Text.isHexDigit, rest.dropWhile Text.isHexDigit with
    | _ :: _, '.' :: _ :: _ => true
    | _, _ => false
  | _ => false

end CodeAtlas.Address
