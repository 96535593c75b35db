import CodeAtlas.Glob.Expression
import CodeAtlas.Text.Slice

/-!
# Patterns

A line of an ignore file. It is read into pieces, segment by segment; a path matches if the pieces
are found in it one after the other.
-/

namespace CodeAtlas.Glob

/-! ## Segments -/

/-- Why there is no pattern: the line says nothing, it ends with a lone backslash, or a range in it
is reversed. -/
inductive Unreadable where
  | idle
  | malformed
  | reversed (range : ReversedRange)
  deriving DecidableEq, Repr

/-- The items in a bracket. A hyphen between two characters makes a range; at either end it
stands for itself. -/
def bracketItems : List Char → List BracketItem
  | [] => []
  | c :: '-' :: d :: rest => .range c d :: bracketItems rest
  | c :: rest => .char c :: bracketItems rest

/-- Whether a bracket is negated, and what comes after the sign for it. -/
def bracketSign : List Char → Bool × List Char
  | '!' :: rest => (true, rest)
  | '^' :: rest => (true, rest)
  | cs => (false, cs)

/-- A closing bracket right at the start, which stands for itself, and what comes after it. -/
def bracketStart : List Char → List Char × List Char
  | ']' :: rest => ([']'], rest)
  | cs => ([], cs)

/-- A bracket after its opening: whether it is negated, what it holds, and what follows. -/
def bracket? (cs : List Char) : Option (Bool × List Char × List Char) :=
  let (negated, cs) := bracketSign cs
  let (first, cs) := bracketStart cs
  match cs.dropWhile (· != ']') with
  | _ :: rest => some (negated, first ++ cs.takeWhile (· != ']'), rest)
  | [] => none

theorem length_bracketSign_le (cs : List Char) : (bracketSign cs).2.length ≤ cs.length := by
  unfold bracketSign
  split <;> simp

theorem length_bracketStart_le (cs : List Char) : (bracketStart cs).2.length ≤ cs.length := by
  unfold bracketStart
  split <;> simp

theorem length_le_of_bracket? {cs content rest : List Char} {negated : Bool}
    (h : bracket? cs = some (negated, content, rest)) : rest.length ≤ cs.length := by
  have hsign := length_bracketSign_le cs
  have hstart := length_bracketStart_le (bracketSign cs).2
  have hdrop := Text.length_dropWhile_le (· != ']') (bracketStart (bracketSign cs).2).2
  unfold bracket? at h
  dsimp only at h
  split at h
  · rename_i c after hclose
    cases h
    rw [hclose, List.length_cons] at hdrop
    omega
  · cases h

/-- The pieces of one segment of a pattern. -/
def segmentPieces (cs : List Char) : Except Unreadable (List Piece) :=
  match cs with
  | [] => .ok []
  | '\\' :: rest =>
    match rest with
    | c :: more => (segmentPieces more).map (.one (.literal c) :: ·)
    | [] => .error .malformed
  | '*' :: rest => (segmentPieces rest).map (.many .notSlash :: ·)
  | '?' :: rest => (segmentPieces rest).map (.one .notSlash :: ·)
  | '[' :: rest =>
    match _h : bracket? rest with
    | some (negated, content, more) =>
      (segmentPieces more).map (.one (.bracket negated (bracketItems content)) :: ·)
    | none => .error .idle
  | c :: rest => (segmentPieces rest).map (.one (.literal c) :: ·)
termination_by cs.length
decreasing_by
  all_goals try (simp only [List.length_cons]; omega)
  have := length_le_of_bracket? _h
  simp only [List.length_cons]
  omega

/-! ## Whole patterns -/

/-- The segment that stands for any directories. -/
def anyDepth : List Char := ['*', '*']

/-- The segments without repetitions of `**` beside each other. -/
def collapse : List (List Char) → List (List Char)
  | a :: b :: rest =>
    if a == anyDepth && b == anyDepth then collapse (b :: rest) else a :: collapse (b :: rest)
  | segs => segs

/-- The segments of a pattern in full: a pattern of one segment matches at any depth, and one that
ends with a slash matches what lies below. Nothing is left of a pattern without segments. -/
def fullSegments (segs : List (List Char)) : List (List Char) :=
  let segs := match segs with
    | [] :: rest => rest
    | [seg] => if seg == anyDepth then [seg] else [anyDepth, seg]
    | [seg, []] => if seg == anyDepth then [seg, []] else [anyDepth, seg, []]
    | _ => segs
  let segs := if segs.getLast? == some [] then segs.dropLast ++ [anyDepth] else segs
  collapse segs

/-- The pieces of the segments from one on that is not the first. `slash` says whether a slash has
to come before it. -/
def laterPieces (slash : Bool) : List (List Char) → Except Unreadable (List Piece)
  | [] => .ok []
  | seg :: rest =>
    if seg == anyDepth then
      if rest.isEmpty then .ok [.one (.literal '/')]
      else (laterPieces true rest).map (.below :: ·)
    else do
      let before := if slash then [.one (.literal '/')] else []
      let here ←
        if seg == ['*'] then pure [.atLeastOne .notSlash] else segmentPieces seg
      let later ← laterPieces true rest
      pure (before ++ here ++ (if rest.isEmpty then [.boundary] else []) ++ later)

/-- The pieces of a pattern in full segments. -/
def patternPieces (isDirectory : Bool) (segs : List (List Char)) :
    Except Unreadable (List Piece) :=
  if segs == [anyDepth] then
    .ok [.one (if isDirectory then .literal '/' else .notNewline)]
  else if segs == [anyDepth, ['*']] then .ok [.one .notNewline]
  else if segs == [anyDepth, ['*'], anyDepth] then .ok [.one (.literal '/')]
  else
    match segs with
    | [] => .error .malformed
    | first :: rest =>
      if first == anyDepth then (laterPieces false rest).map fun ps => .start :: .directories :: ps
      else (laterPieces false segs).map (.start :: ·)

/-- A line that was read: whether it takes paths in or leaves them out, and its pieces. -/
structure Pattern where
  isInclude : Bool
  pieces : List Piece
  deriving DecidableEq, Repr, Inhabited

/-- The line without the blanks at its end, unless a backslash keeps the last. -/
def lineText (cs : List Char) : List Char :=
  if ['\\', ' '].isSuffixOf cs then cs else Text.dropEndWhile Text.isBlank cs

/-- Reads a line. Blank lines, comments and a lone slash say nothing. An exclamation mark in front
makes the pattern leave paths out. Ranges are looked at when all segments have been read. -/
def Pattern.read (line : List Char) : Except Unreadable Pattern :=
  let text := lineText line
  if text.isEmpty || text.head? == some '#' || text == ['/'] then .error .idle
  else
    let (isInclude, text) := match text with
      | '!' :: rest => (false, rest)
      | _ => (true, text)
    let segs := Text.splitAt '/' text
    match patternPieces (segs.getLast? == some []) (fullSegments segs) with
    | .error e => .error e
    | .ok pieces =>
      match reversedRange? pieces with
      | some range => .error (.reversed range)
      | none => .ok ⟨isInclude, pieces⟩

/-- The path as patterns see it: without one slash, or one `./`, in front. -/
def pathText (path : List Char) : List Char :=
  match path with
  | '/' :: rest => rest
  | '.' :: '/' :: rest => rest
  | _ => path

/-- Whether a path matches a pattern. -/
def Pattern.matches (p : Pattern) (path : List Char) : Bool :=
  found p.pieces (pathText path)

end CodeAtlas.Glob
