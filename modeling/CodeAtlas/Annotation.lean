import CodeAtlas.Text.Bracket
import CodeAtlas.TypeName

/-!
# Type annotations

An annotation is the text of a type as a source file has it, in any of the languages. `core?` peels
off what only wraps a type (quotes, arrays, containers, promises, unions with nothing) and gives
the name that is left. The reading calls itself on shorter texts only.
-/

namespace CodeAtlas

/-- What an annotation comes down to. -/
structure CoreType where
  /-- Name of the type, without qualifier. -/
  name : String
  /-- Whether the annotation stands for a collection of the type. -/
  isArray : Bool
  /-- The type arguments as written. -/
  arguments : List String
  deriving DecidableEq, Repr, Inhabited

namespace Annotation

open Text

/-! ## Parts of an annotation -/

/-- A quotation mark around a type that is declared later in the file. -/
def isQuote (c : Char) : Bool :=
  c == '\'' || c == '"'

/-- The text without blanks and quotation marks around it. -/
def unquote (cs : List Char) : List Char :=
  trim (trimWhile isQuote (trim cs))

/-- The text without the word `readonly` in front. -/
def dropReadonly (cs : List Char) : List Char :=
  match dropStart? ['r', 'e', 'a', 'd', 'o', 'n', 'l', 'y', ' '] cs with
  | some rest => trim rest
  | none => cs

/-- Whether an arrow `=>` occurs in the text. -/
def hasArrow : List Char → Bool
  | '=' :: '>' :: _ => true
  | _ :: rest => hasArrow rest
  | [] => false

/-- The text without a pair of parentheses around it. Those of a function type stay. -/
def dropParens (cs : List Char) : List Char :=
  if cs.head? == some '(' && cs.getLast? == some ')' && !hasArrow cs then
    trim cs.tail.dropLast
  else cs

/-- The bare text of an annotation. -/
def bare (cs : List Char) : List Char :=
  dropParens (dropReadonly (unquote cs))

/-- A character of the name in front of type arguments. -/
def isGenericName (c : Char) : Bool :=
  isWord c || c == '.' || c == '$'

/-- A type with arguments in angle or square brackets: the name without qualifier, and the text
between the first bracket and the last. -/
def generic? (cs : List Char) : Option (List Char × List Char) :=
  match (cs.dropWhile isGenericName).dropWhile isBlank with
  | [] => none
  | c :: rest =>
    if (c == '<' || c == '[') && (rest.getLast? == some '>' || rest.getLast? == some ']') &&
        !(cs.takeWhile isGenericName).isEmpty then
      some (afterLast '.' (cs.takeWhile isGenericName), rest.dropLast)
    else none

/-- The first member of a union that is a value. -/
def firstMeaningful? (members : List (List Char)) : Option (List Char) :=
  members.find? fun m => !TypeName.nullishNames.contains (String.ofList (trimWhile isQuote m))

/-! ## One step of reading -/

/-- What an annotation is on its outside. -/
inductive Shape where
  /-- It leaves the type open. -/
  | absent
  /-- It is a name, with the arguments that belong to it. -/
  | named (core : CoreType)
  /-- It stands for what another text stands for. -/
  | wrapped (inner : List Char)
  /-- It is a collection of what another text stands for. -/
  | collection (element : List Char)

/-- The shape of a union with the given members. -/
def unionShape (members : List (List Char)) : Shape :=
  match firstMeaningful? members with
  | none => .absent
  | some member => .wrapped member

/-- The shape of a type with arguments. -/
def genericShape (base : String) (arguments : List (List Char)) : Shape :=
  if base == "Union" then unionShape arguments
  else
    match arguments with
    | [] => .named ⟨base, false, []⟩
    | first :: more =>
      if TypeName.containerNames.contains base && more.isEmpty then .collection first
      else if TypeName.wrapperNames.contains base then .wrapped first
      else .named ⟨base, false, arguments.map String.ofList⟩

/-- The shape of a bare text that is no union. -/
def plainShape (cs : List Char) : Shape :=
  match dropFinal? ['[', ']'] cs with
  | some element => .collection element
  | none =>
    match generic? cs with
    | some (base, inner) => genericShape (String.ofList base) (splitTopLevel ',' inner)
    | none => .named ⟨String.ofList (afterLast '.' cs), false, []⟩

/-- The shape of a bare text. -/
def shape (cs : List Char) : Shape :=
  if cs.isEmpty || TypeName.untypedNames.contains (String.ofList cs) then .absent
  else
    match splitTopLevel '|' cs with
    | first :: second :: more => unionShape (first :: second :: more)
    | _ => plainShape cs

/-! ## Lengths -/

/-- The text that is left to read. -/
def Shape.rest? : Shape → Option (List Char)
  | .wrapped inner => some inner
  | .collection element => some element
  | _ => none

theorem length_bare_le (cs : List Char) : (bare cs).length ≤ cs.length := by
  have h1 : (unquote cs).length ≤ cs.length :=
    Nat.le_trans (length_trim_le _) (Nat.le_trans (length_trimWhile_le _ _) (length_trim_le _))
  have h2 : (dropReadonly (unquote cs)).length ≤ (unquote cs).length := by
    unfold dropReadonly
    split
    · rename_i rest h
      have := length_lt_of_dropStart? (by simp) h
      have := length_trim_le rest
      omega
    · exact Nat.le_refl _
  have h3 : (bare cs).length ≤ (dropReadonly (unquote cs)).length := by
    unfold bare dropParens
    split
    · have := length_trim_le (dropReadonly (unquote cs)).tail.dropLast
      simp only [List.length_dropLast, List.length_tail] at this
      omega
    · exact Nat.le_refl _
  omega

theorem length_lt_of_generic? {cs name inner : List Char} (h : generic? cs = some (name, inner)) :
    inner.length < cs.length := by
  unfold generic? at h
  split at h
  · cases h
  · rename_i c rest hd
    split at h
    · have h1 := length_dropWhile_le isBlank (cs.dropWhile isGenericName)
      have h2 := length_dropWhile_le isGenericName cs
      rw [hd] at h1
      simp only [List.length_cons] at h1
      cases h
      simp only [List.length_dropLast]
      omega
    · cases h

theorem mem_of_unionShape {members : List (List Char)} {t : List Char}
    (h : (unionShape members).rest? = some t) : t ∈ members := by
  unfold unionShape at h
  split at h
  · cases h
  · rename_i m hm
    cases h
    exact List.mem_of_find?_eq_some hm

theorem mem_of_genericShape {base : String} {arguments : List (List Char)} {t : List Char}
    (h : (genericShape base arguments).rest? = some t) : t ∈ arguments := by
  unfold genericShape at h
  split at h
  · exact mem_of_unionShape h
  · split at h
    · cases h
    · split at h
      · cases h
        exact List.mem_cons_self
      · split at h
        · cases h
          exact List.mem_cons_self
        · cases h

theorem length_lt_of_plainShape {cs t : List Char} (h : (plainShape cs).rest? = some t) :
    t.length < cs.length := by
  unfold plainShape at h
  split at h
  · rename_i element hd
    cases h
    exact length_lt_of_dropFinal? (by simp) hd
  · split at h
    · rename_i base inner hg
      exact Nat.lt_of_le_of_lt (length_le_of_mem_splitTopLevel (mem_of_genericShape h))
        (length_lt_of_generic? hg)
    · cases h

/-- What is left to read is shorter. -/
theorem length_lt_of_shape {cs t : List Char} (h : (shape cs).rest? = some t) :
    t.length < cs.length := by
  unfold shape at h
  split at h
  · cases h
  · split at h
    · rename_i first second more hs
      have hm := mem_of_unionShape h
      rw [← hs] at hm
      exact length_lt_of_mem_splitTopLevel hm (by simp [hs])
    · exact length_lt_of_plainShape h

/-! ## Reading -/

/-- What an annotation stands for, nothing if it leaves the type open. -/
def coreChars? (cs : List Char) : Option CoreType :=
  match _h : shape (bare cs) with
  | .absent => none
  | .named core => some core
  | .wrapped inner => coreChars? inner
  | .collection element => (coreChars? element).map fun core => { core with isArray := true }
termination_by cs.length
decreasing_by
  all_goals
    refine Nat.lt_of_lt_of_le (length_lt_of_shape ?_) (length_bare_le cs)
    simp only [_h, Shape.rest?]

/-- What an annotation stands for, nothing if it leaves the type open. -/
def core? (written : String) : Option CoreType :=
  coreChars? written.toList

/-- Whether an annotation stands for a collection, and whether what it comes down to is the name
of a declared type. A missing annotation is neither. -/
def describe (written : Option String) : Bool × Bool :=
  match written.bind core? with
  | none => (false, false)
  | some core => (core.isArray, TypeName.isDeclared core.name)

end Annotation

end CodeAtlas
