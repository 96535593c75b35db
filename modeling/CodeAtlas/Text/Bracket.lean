import CodeAtlas.Text.Slice

/-!
# Splitting outside brackets

A list of types such as `Map<string, User>, Order` is split only at the separators that stand
outside every bracket. The pieces of a text are shorter than the text as soon as there are two of
them, which is what lets a reader of nested types call itself on each.
-/

namespace CodeAtlas.Text

/-- An opening bracket of any kind. -/
def isOpening (c : Char) : Bool :=
  c == '<' || c == '[' || c == '(' || c == '\x7b'

/-- A closing bracket of any kind. -/
def isClosing (c : Char) : Bool :=
  c == '>' || c == ']' || c == ')' || c == '\x7d'

/-- The number of open brackets after one more character. The `>` of an arrow `=>` closes
nothing. A surplus of closing brackets counts below zero. -/
def depthAfter (depth : Int) (previous : Option Char) (c : Char) : Int :=
  if isOpening c then depth + 1
  else if isClosing c && !(c == '>' && previous == some '=') then depth - 1
  else depth

/-- Puts a character in front of the first piece. -/
def consPiece (c : Char) : List (List Char) → List (List Char)
  | [] => [[c]]
  | piece :: pieces => (c :: piece) :: pieces

/-- The pieces between the separators outside every bracket, as they stand in the text. -/
def topLevelPieces (sep : Char) (depth : Int) (previous : Option Char) :
    List Char → List (List Char)
  | [] => [[]]
  | c :: rest =>
    let depth' := depthAfter depth previous c
    if c == sep && depth' == 0 then [] :: topLevelPieces sep depth' (some c) rest
    else consPiece c (topLevelPieces sep depth' (some c) rest)

/-- The trimmed pieces between the separators outside every bracket, empty ones dropped. -/
def splitTopLevel (sep : Char) (cs : List Char) : List (List Char) :=
  ((topLevelPieces sep 0 none cs).map trim).filter (· ≠ [])

/-- The same for a separator given as a text. Only a single character separates; a text of any
other length is met nowhere. -/
def splitTopLevelAt (sep : List Char) (cs : List Char) : List (List Char) :=
  match sep with
  | [c] => splitTopLevel c cs
  | _ => [trim cs].filter (· ≠ [])

/-! ## Lengths -/

/-- The separators and the pieces together are the text. -/
theorem length_topLevelPieces (sep : Char) (depth : Int) (previous : Option Char)
    (cs : List Char) :
    (topLevelPieces sep depth previous cs).flatten.length +
      (topLevelPieces sep depth previous cs).length = cs.length + 1 := by
  induction cs generalizing depth previous with
  | nil => simp [topLevelPieces]
  | cons c rest ih =>
    have h := ih (depthAfter depth previous c) (some c)
    simp only [topLevelPieces]
    split
    · simp only [List.flatten_cons, List.nil_append, List.length_cons]
      omega
    · cases hp : topLevelPieces sep (depthAfter depth previous c) (some c) rest with
      | nil => rw [hp] at h; simp at h
      | cons piece pieces =>
        rw [hp] at h
        simp only [consPiece, List.flatten_cons, List.length_append, List.length_cons] at h ⊢
        omega

private theorem length_le_flatten_of_mem {pieces : List (List Char)} {p : List Char}
    (h : p ∈ pieces) : p.length ≤ pieces.flatten.length := by
  induction pieces with
  | nil => cases h
  | cons q qs ih =>
    simp only [List.flatten_cons, List.length_append]
    rcases List.mem_cons.1 h with rfl | h
    · omega
    · have := ih h
      omega

/-- A piece and the separators fit into the text. -/
private theorem length_add_le_of_mem_splitTopLevel {sep : Char} {cs p : List Char}
    (h : p ∈ splitTopLevel sep cs) :
    p.length + (topLevelPieces sep 0 none cs).length ≤ cs.length + 1 := by
  obtain ⟨q, hq, rfl⟩ := List.mem_map.1 (List.mem_filter.1 h).1
  have htrim := length_trim_le q
  have hpiece := length_le_flatten_of_mem hq
  have hpieces := length_topLevelPieces sep 0 none cs
  omega

/-- No more pieces are kept than there are. -/
private theorem length_splitTopLevel_le (sep : Char) (cs : List Char) :
    (splitTopLevel sep cs).length ≤ (topLevelPieces sep 0 none cs).length := by
  have hfilter := List.length_filter_le (fun x : List Char => decide (x ≠ []))
    ((topLevelPieces sep 0 none cs).map trim)
  simpa [splitTopLevel] using hfilter

/-- No piece is longer than the text. -/
theorem length_le_of_mem_splitTopLevel {sep : Char} {cs p : List Char}
    (h : p ∈ splitTopLevel sep cs) : p.length ≤ cs.length := by
  have hfits := length_add_le_of_mem_splitTopLevel h
  have hcount := length_splitTopLevel_le sep cs
  have hpos := List.length_pos_of_mem h
  omega

/-- Of two or more pieces each is shorter than the text. -/
theorem length_lt_of_mem_splitTopLevel {sep : Char} {cs p : List Char}
    (h : p ∈ splitTopLevel sep cs) (two : 2 ≤ (splitTopLevel sep cs).length) :
    p.length < cs.length := by
  have hfits := length_add_le_of_mem_splitTopLevel h
  have hcount := length_splitTopLevel_le sep cs
  omega

end CodeAtlas.Text
