import CodeAtlas.Json
import CodeAtlas.Decimal.Shortest
import CodeAtlas.Text.Surrogate

/-!
# Reading values

The grammar is the common one, with two allowances: `NaN`, `Infinity` and `-Infinity` are numbers,
and of members with one key the last counts. A byte-order mark and bare control characters in a
string are errors. Two limits hold: on the nesting of values, which is given, and on the digits of
whole numbers.
-/

namespace CodeAtlas.Json

/-! ## Faults -/

/-- Why a text stands for no value. -/
inductive Fault where
  /-- The grammar does not allow it. -/
  | malformed
  /-- An array or an object lies too deep. -/
  | tooDeep (isArray : Bool)
  /-- A whole number has too many digits. -/
  | tooLong (digits : Nat)
  deriving DecidableEq, Repr

/-- How many digits a whole number may have. -/
def digitLimit : Nat := 4300

/-- The text without the blanks in front. -/
def skipBlanks (cs : List Char) : List Char :=
  cs.dropWhile fun c => c == ' ' || c == '\t' || c == '\n' || c == '\r'

/-! ## Strings -/

/-- The value of four hexadecimal digits. -/
def hex4? : List Char → Option (Nat × List Char)
  | a :: b :: c :: d :: rest => do
    let a ← Text.hexValue? a
    let b ← Text.hexValue? b
    let c ← Text.hexValue? c
    let d ← Text.hexValue? d
    pure (((a * 16 + b) * 16 + c) * 16 + d, rest)
  | _ => none

/-- The code point of an escape whose first half is `first`: two halves of a surrogate pair are
one character. -/
def pairWith (first : Nat) (rest : List Char) : Nat × List Char :=
  if 0xd800 ≤ first && first < 0xdc00 then
    match rest with
    | '\\' :: 'u' :: more =>
      match hex4? more with
      | some (second, after) =>
        if 0xdc00 ≤ second && second < 0xe000 then
          (0x10000 + (first - 0xd800) * 0x400 + (second - 0xdc00), after)
        else (first, rest)
      | none => (first, rest)
    | _ => (first, rest)
  else (first, rest)

/-- The character of an escape with one letter. -/
def escaped? (letter : Char) : Option Char :=
  match letter with
  | '"' => some '"'
  | '\\' => some '\\'
  | '/' => some '/'
  | 'b' => some '\x08'
  | 'f' => some '\x0c'
  | 'n' => some '\n'
  | 'r' => some '\r'
  | 't' => some '\t'
  | _ => none

/-- The rest of a string after its opening mark. `taken` is what has been read of it, from the last
character to the first. -/
def readString : Nat → List Char → List Char → Option (List Char × List Char)
  | 0, _, _ => none
  | fuel + 1, taken, cs =>
    match cs with
    | [] => none
    | '"' :: rest => some (taken.reverse, rest)
    | '\\' :: 'u' :: rest =>
      match hex4? rest with
      | some (first, rest) =>
        let (code, rest) := pairWith first rest
        readString fuel (Text.ofCodePoint code :: taken) rest
      | none => none
    | '\\' :: letter :: rest =>
      match escaped? letter with
      | some c => readString fuel (c :: taken) rest
      | none => none
    | c :: rest =>
      if c.toNat < 0x20 || c == '\\' then none else readString fuel (c :: taken) rest

/-- A string after its opening mark. -/
def stringText? (cs : List Char) : Option (String × List Char) :=
  (readString (cs.length + 1) [] cs).map fun (text, rest) => (String.ofList text, rest)

/-! ## Numbers -/

/-- The digits in front of a text, as a number with its count of digits. -/
def readDigits (cs : List Char) : Nat × Nat × List Char :=
  let ds := cs.takeWhile Char.isDigit
  (ds.foldl (fun n d => n * 10 + (d.toNat - 0x30)) 0, ds.length, cs.dropWhile Char.isDigit)

/-- The exponent in front of a text, if a whole one stands there. -/
def readExponent (cs : List Char) : Option (Int × List Char) :=
  match cs with
  | [] => none
  | e :: rest =>
    if e == 'e' || e == 'E' then
      let (negative, rest) := match rest with
        | '-' :: more => (true, more)
        | '+' :: more => (false, more)
        | _ => (false, rest)
      let (n, count, rest) := readDigits rest
      if count == 0 then none else some (if negative then -(n : Int) else n, rest)
    else none

/-- A number without its sign. A point or an exponent that is not followed by a digit is left
for what comes next. -/
def readNumber (negative : Bool) (cs : List Char) : Except Fault (Json × List Char) :=
  let (whole, count, rest) := match cs with
    | '0' :: more => (0, 1, more)
    | _ => readDigits cs
  if count == 0 then .error .malformed
  else
    let (fraction, places, afterFraction) := match rest with
      | '.' :: more =>
        let (n, places, after) := readDigits more
        if places == 0 then (0, 0, rest) else (n, places, after)
      | _ => (0, 0, rest)
    let (exponent, after, isFloat) := match readExponent afterFraction with
      | some (e, after) => (e, after, true)
      | none => (0, afterFraction, places != 0)
    if isFloat then
      let x := Decimal.toFloat (whole * Nat.pow 10 places + fraction) (exponent - places)
      .ok (.float (if negative then -x else x), after)
    else if digitLimit < count then .error (.tooLong count)
    else .ok (.int (if negative then -(whole : Int) else whole), after)

/-! ## Values -/

/-- A value that is not built of others. -/
def readAtom (cs : List Char) : Except Fault (Json × List Char) :=
  match cs with
  | '"' :: rest =>
    match stringText? rest with
    | some (text, rest) => .ok (.str text, rest)
    | none => .error .malformed
  | 'n' :: 'u' :: 'l' :: 'l' :: rest => .ok (.null, rest)
  | 't' :: 'r' :: 'u' :: 'e' :: rest => .ok (.bool true, rest)
  | 'f' :: 'a' :: 'l' :: 's' :: 'e' :: rest => .ok (.bool false, rest)
  | 'N' :: 'a' :: 'N' :: rest => .ok (.float (0 / 0), rest)
  | 'I' :: 'n' :: 'f' :: 'i' :: 'n' :: 'i' :: 't' :: 'y' :: rest => .ok (.float (1 / 0), rest)
  | '-' :: 'I' :: 'n' :: 'f' :: 'i' :: 'n' :: 'i' :: 't' :: 'y' :: rest =>
    .ok (.float (-1 / 0), rest)
  | '-' :: rest => readNumber true rest
  | _ => readNumber false cs

mutual

/-- A value in front of a text, with room for so many levels. Blanks before it are not skipped. -/
def readValue : Nat → Nat → List Char → Except Fault (Json × List Char)
  | 0, _, _ => .error .malformed
  | fuel + 1, room, cs =>
    match cs, room with
    | '[' :: _, 0 => .error (.tooDeep true)
    | '\x7b' :: _, 0 => .error (.tooDeep false)
    | '[' :: rest, room + 1 =>
      match skipBlanks rest with
      | ']' :: rest => .ok (.arr [], rest)
      | rest => readItems fuel room [] rest
    | '\x7b' :: rest, room + 1 =>
      match skipBlanks rest with
      | '\x7d' :: rest => .ok (.obj [], rest)
      | rest => readMembers fuel room [] rest
    | _, _ => readAtom cs

/-- An array from its next item on. `taken` holds the items before, the last one first. -/
def readItems : Nat → Nat → List Json → List Char → Except Fault (Json × List Char)
  | 0, _, _, _ => .error .malformed
  | fuel + 1, room, taken, cs =>
    match readValue fuel room cs with
    | .error e => .error e
    | .ok (item, rest) =>
      match skipBlanks rest with
      | ']' :: rest => .ok (.arr (item :: taken).reverse, rest)
      | ',' :: rest => readItems fuel room (item :: taken) (skipBlanks rest)
      | _ => .error .malformed

/-- An object from its next member on. `taken` holds the members before. -/
def readMembers : Nat → Nat → List (String × Json) → List Char → Except Fault (Json × List Char)
  | 0, _, _, _ => .error .malformed
  | fuel + 1, room, taken, cs =>
    match cs with
    | '"' :: rest =>
      match stringText? rest with
      | none => .error .malformed
      | some (key, rest) =>
        match skipBlanks rest with
        | ':' :: rest =>
          match readValue fuel room (skipBlanks rest) with
          | .error e => .error e
          | .ok (value, rest) =>
            let taken := insertMember key value taken
            match skipBlanks rest with
            | '\x7d' :: rest => .ok (.obj taken, rest)
            | ',' :: rest => readMembers fuel room taken (skipBlanks rest)
            | _ => .error .malformed
        | _ => .error .malformed
    | _ => .error .malformed

end

/-- The value that a whole text stands for, with room for so many levels. A stack of the usual depth
has room for 990. Every level of nesting spends two units of fuel and at least one character. -/
def ofText (text : String) (room : Nat := 990) : Except Fault Json :=
  let cs := text.toList
  match readValue (2 * cs.length + 2) room (skipBlanks cs) with
  | .error e => .error e
  | .ok (value, rest) => if (skipBlanks rest).isEmpty then .ok value else .error .malformed

end CodeAtlas.Json
