/-!
# Pieces of patterns

A pattern is a list of pieces, and each takes some text off a path. How far into the path the
pieces so far can have come is kept as one mark for every position; a piece moves the marks on, in
one pass over the path. So no choice is ever tried twice.
-/

namespace CodeAtlas.Glob

/-! ## Conditions on characters -/

/-- What a bracket holds: characters and ranges of them. -/
inductive BracketItem where
  | char (c : Char)
  | range (lo hi : Char)
  deriving DecidableEq, Repr, Inhabited

/-- Whether a character is one that an item stands for. -/
def BracketItem.holds : BracketItem → Char → Bool
  | char c, x => x == c
  | range lo hi, x => lo ≤ x && x ≤ hi

/-- A condition on one character. -/
inductive CharTest where
  | literal (c : Char)
  | notSlash
  | notNewline
  /-- One of what a bracket holds, or anything else. -/
  | bracket (negated : Bool) (items : List BracketItem)
  deriving DecidableEq, Repr, Inhabited

/-- Whether a character meets a condition. -/
def CharTest.holds : CharTest → Char → Bool
  | literal c, x => x == c
  | notSlash, x => x != '/'
  | notNewline, x => x != '\n'
  | bracket negated items, x => (items.any (·.holds x)) != negated

/-! ## Marks -/

/-- For the position before each character of a text, and for the one at its end, whether it is
reached. -/
abbrev Marks := List Bool

namespace Marks

/-- Every position of a text. -/
def all (cs : List Char) : Marks :=
  List.replicate (cs.length + 1) true

/-- The first position only. -/
def atStart : Marks → Marks
  | [] => []
  | mark :: marks => mark :: marks.map fun _ => false

/-- The positions at the end, or before a line feed at the end. -/
def atEnd : List Char → Marks → Marks
  | ['\n'], marks => marks
  | _ :: cs, _ :: marks => false :: atEnd cs marks
  | _, marks => marks

/-- The positions after one more character, which meets a condition. -/
def afterOne (test : CharTest) (cs : List Char) (marks : Marks) : Marks :=
  false :: List.zipWith (fun c mark => mark && test.holds c) cs marks

/-- The positions after any number of characters that meet a condition. `reached` says whether the
first position is reached from before. -/
def afterMany (test : CharTest) (reached : Bool) : List Char → Marks → Marks
  | _, [] => []
  | [], mark :: _ => [reached || mark]
  | c :: cs, mark :: marks =>
    let here := reached || mark
    here :: afterMany test (here && test.holds c) cs marks

/-- The positions after one or more characters that meet a condition. -/
def afterSome (test : CharTest) (cs : List Char) (marks : Marks) : Marks :=
  afterMany test false cs (afterOne test cs marks)

/-- The positions of both. -/
def either (marks others : Marks) : Marks :=
  List.zipWith (· || ·) marks others

end Marks

/-! ## Pieces -/

/-- A part of a pattern. -/
inductive Piece where
  /-- Takes nothing, at the start of the path only. -/
  | start
  /-- Takes one character. -/
  | one (test : CharTest)
  /-- Takes any number of characters. -/
  | many (test : CharTest)
  /-- Takes one character or more. -/
  | atLeastOne (test : CharTest)
  /-- Takes nothing, or directories and the slash after them. -/
  | directories
  /-- Takes nothing, or a slash and something below it. -/
  | below
  /-- Takes a slash, or nothing at the end of the path or before a last line feed. -/
  | boundary
  deriving DecidableEq, Repr, Inhabited

/-- The positions after a piece. -/
def Piece.after (cs : List Char) (marks : Marks) : Piece → Marks
  | start => marks.atStart
  | one test => marks.afterOne test cs
  | many test => marks.afterMany test false cs
  | atLeastOne test => marks.afterSome test cs
  | directories => marks.either ((marks.afterSome .notNewline cs).afterOne (.literal '/') cs)
  | below => marks.either ((marks.afterOne (.literal '/') cs).afterSome .notNewline cs)
  | boundary => (marks.afterOne (.literal '/') cs).either (marks.atEnd cs)

/-- Whether the pieces can be found one after the other somewhere in a text. -/
def found (pieces : List Piece) (cs : List Char) : Bool :=
  (pieces.foldl (fun marks piece => piece.after cs marks) (Marks.all cs)).contains true

/-! ## Lengths -/

theorem Marks.length_afterOne (test : CharTest) {cs : List Char} {marks : Marks}
    (h : marks.length = cs.length + 1) : (marks.afterOne test cs).length = cs.length + 1 := by
  simp only [afterOne, List.length_cons, List.length_zipWith]
  omega

theorem Marks.length_afterMany (test : CharTest) (reached : Bool) {cs : List Char} {marks : Marks}
    (h : marks.length = cs.length + 1) :
    (marks.afterMany test reached cs).length = cs.length + 1 := by
  induction cs generalizing marks reached with
  | nil =>
    cases marks with
    | nil => simp at h
    | cons mark marks => rfl
  | cons c cs ih =>
    cases marks with
    | nil => simp at h
    | cons mark marks =>
      have hm : marks.length = cs.length + 1 := by simpa using h
      simp only [afterMany, List.length_cons, ih _ hm]

theorem Marks.length_afterSome (test : CharTest) {cs : List Char} {marks : Marks}
    (h : marks.length = cs.length + 1) : (marks.afterSome test cs).length = cs.length + 1 :=
  length_afterMany test false (length_afterOne test h)

theorem Marks.length_atEnd {cs : List Char} {marks : Marks}
    (h : marks.length = cs.length + 1) : (marks.atEnd cs).length = cs.length + 1 := by
  fun_induction atEnd cs marks with
  | case1 => exact h
  | case2 c cs mark marks _ ih =>
    have hm : marks.length = cs.length + 1 := by simpa using h
    simp only [List.length_cons, ih hm]
  | case3 => exact h

/-- A piece leaves one mark for every position. -/
theorem Piece.length_after (piece : Piece) {cs : List Char} {marks : Marks}
    (h : marks.length = cs.length + 1) : (piece.after cs marks).length = cs.length + 1 := by
  cases piece with
  | start =>
    cases marks with
    | nil => simp at h
    | cons mark marks => simpa [after, Marks.atStart] using h
  | one test => exact Marks.length_afterOne test h
  | many test => exact Marks.length_afterMany test false h
  | atLeastOne test => exact Marks.length_afterSome test h
  | directories =>
    have h' := Marks.length_afterOne (.literal '/') (Marks.length_afterSome .notNewline h)
    simp [after, Marks.either, h, h']
  | below =>
    have h' := Marks.length_afterSome .notNewline (Marks.length_afterOne (.literal '/') h)
    simp [after, Marks.either, h, h']
  | boundary =>
    have h' := Marks.length_afterOne (.literal '/') h
    simp [after, Marks.either, h', Marks.length_atEnd h]

end CodeAtlas.Glob
