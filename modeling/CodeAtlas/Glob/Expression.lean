import CodeAtlas.Glob.Piece

/-!
# Written expressions

The pieces of a pattern in the usual notation of regular expressions. A range in a bracket that
ends before it starts is an error, and its place is counted in this text.
-/

namespace CodeAtlas.Glob

/-! ## Notation -/

/-- A character that means something else in an expression unless a backslash stands before it. -/
def isOperator (c : Char) : Bool :=
  "()[]\x7b\x7d?*+-|^$\\.&~# \t\n\r\x0b\x0c".toList.contains c

/-- A character as a bracket shows it. -/
def memberText (c : Char) : List Char :=
  if c == '\\' then ['\\', '\\'] else [c]

/-- An item of a bracket. -/
def BracketItem.text : BracketItem → List Char
  | char c => memberText c
  | range lo hi => memberText lo ++ '-' :: memberText hi

/-- What opens a bracket. -/
def bracketOpening (negated : Bool) : List Char :=
  if negated then ['[', '^'] else ['[']

/-- A condition on one character. -/
def CharTest.text : CharTest → List Char
  | literal c => if isOperator c then ['\\', c] else [c]
  | notSlash => ['[', '^', '/', ']']
  | notNewline => ['.']
  | bracket negated items => bracketOpening negated ++ items.flatMap (·.text) ++ [']']

/-- A piece of a pattern. -/
def Piece.text : Piece → List Char
  | start => ['^']
  | one test => test.text
  | many test => test.text ++ ['*']
  | atLeastOne test => test.text ++ ['+']
  | directories => "(?:.+/)?".toList
  | below => "(?:/.+)?".toList
  | boundary => "(?:/|$)".toList

/-- A list of pieces. -/
def expression (pieces : List Piece) : List Char :=
  pieces.flatMap (·.text)

/-! ## Reversed ranges -/

/-- A range whose end comes before its start. -/
def BracketItem.isReversed : BracketItem → Bool
  | char _ => false
  | range lo hi => hi < lo

/-- The first reversed range among the items of a bracket, with its offset in the expression. -/
def reversedItem? (offset : Nat) : List BracketItem → Option (Nat × BracketItem)
  | [] => none
  | item :: items =>
    if item.isReversed then some (offset, item)
    else reversedItem? (offset + item.text.length) items

/-- The first reversed range in a condition that begins at an offset. -/
def CharTest.reversed? (offset : Nat) : CharTest → Option (Nat × BracketItem)
  | bracket negated items => reversedItem? (offset + (bracketOpening negated).length) items
  | _ => none

/-- The first reversed range in a piece that begins at an offset. -/
def Piece.reversed? (offset : Nat) : Piece → Option (Nat × BracketItem)
  | one test | many test | atLeastOne test => test.reversed? offset
  | start | directories | below | boundary => none

/-- The first reversed range in pieces that begin at an offset. -/
def reversedFrom? (offset : Nat) : List Piece → Option (Nat × BracketItem)
  | [] => none
  | piece :: pieces =>
    match piece.reversed? offset with
    | some reversed => some reversed
    | none => reversedFrom? (offset + piece.text.length) pieces

/-- Where a reversed range stands in an expression. -/
structure ReversedRange where
  /-- The range as the expression shows it. -/
  text : String
  offset : Nat
  /-- The line and the column of the offset, from one, if the expression has more than one line. -/
  place : Option (Nat × Nat)
  deriving DecidableEq, Repr, Inhabited

/-- The line and the column of an offset, both from one. -/
def placeIn (text : List Char) (offset : Nat) : Nat × Nat :=
  let before := text.take offset
  (before.count '\n' + 1, (before.reverse.takeWhile (· != '\n')).length + 1)

/-- The first reversed range of some pieces. -/
def reversedRange? (pieces : List Piece) : Option ReversedRange :=
  (reversedFrom? 0 pieces).map fun (offset, item) =>
    let text := expression pieces
    { text := String.ofList item.text
      offset
      place := if text.contains '\n' then some (placeIn text offset) else none }

end CodeAtlas.Glob
