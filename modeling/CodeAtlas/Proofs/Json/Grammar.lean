import CodeAtlas.Json.Reader

/-!
# The grammar of values

Which texts stand for which value, without regard to how they are read. A text is put together from
its parts: characters and escapes, digits, blanks, and the values inside of others. A level of
nesting uses up room (`Spells`), so a text that stands for a value says how much room it needs at
most. Two places in a text have no value for a reason of their own, where an array or an object
opens without room, and where a whole number has too many digits (`Meets`).
-/

namespace CodeAtlas.Json

/-! ## 1. Blanks -/

/-- A run of blanks. -/
def IsBlank (cs : List Char) : Prop :=
  ∀ c ∈ cs, c = ' ' ∨ c = '\t' ∨ c = '\n' ∨ c = '\r'

/-- A piece of text with what it stands for and the blanks around it. -/
structure Padded (α : Type) where
  before : List Char
  text : List Char
  after : List Char
  value : α
  isBlank_before : IsBlank before
  isBlank_after : IsBlank after

/-- The whole piece. -/
def Padded.chars {α : Type} (piece : Padded α) : List Char :=
  piece.before ++ piece.text ++ piece.after

/-! ## 2. Strings -/

/-- Four hexadecimal digits and their value. -/
def IsHex4 (ds : List Char) (n : Nat) : Prop :=
  ∃ a b c d w x y z, ds = [a, b, c, d] ∧ Text.hexValue? a = some w ∧ Text.hexValue? b = some x ∧
    Text.hexValue? c = some y ∧ Text.hexValue? d = some z ∧ n = ((w * 16 + x) * 16 + y) * 16 + z

/-- The first half of a surrogate pair. -/
def IsHigh (n : Nat) : Prop :=
  0xd800 ≤ n ∧ n < 0xdc00

/-- The second half of a surrogate pair. -/
def IsLow (n : Nat) : Prop :=
  0xdc00 ≤ n ∧ n < 0xe000

/-- A text starts with the escape of a second half. -/
def OpensLow (cs : List Char) : Prop :=
  ∃ ds low rest, IsHex4 ds low ∧ IsLow low ∧ cs = '\\' :: 'u' :: ds ++ rest

/-- **A string between its marks** and the characters that it stands for. Two halves in a row are
one character, so a first half stands alone only if no second half follows. -/
inductive SpellsText : List Char → List Char → Prop where
  | nil : SpellsText [] []
  | plain {c : Char} {cs text : List Char} (hc : 0x20 ≤ c.toNat ∧ c ≠ '"' ∧ c ≠ '\\')
    (h : SpellsText cs text) : SpellsText (c :: cs) (c :: text)
  | letter {letter c : Char} {cs text : List Char} (hletter : escaped? letter = some c)
    (h : SpellsText cs text) : SpellsText ('\\' :: letter :: cs) (c :: text)
  | unit {ds cs text : List Char} {n : Nat} (hds : IsHex4 ds n) (hlone : ¬ (IsHigh n ∧ OpensLow cs))
    (h : SpellsText cs text) :
    SpellsText ('\\' :: 'u' :: ds ++ cs) (Text.ofCodePoint n :: text)
  | pair {ds ds' cs text : List Char} {high low : Nat} (hds : IsHex4 ds high) (hhigh : IsHigh high)
    (hds' : IsHex4 ds' low) (hlow : IsLow low) (h : SpellsText cs text) :
    SpellsText ('\\' :: 'u' :: ds ++ ('\\' :: 'u' :: ds' ++ cs))
      (Text.ofCodePoint (0x10000 + (high - 0xd800) * 0x400 + (low - 0xdc00)) :: text)

/-- A string with its marks. -/
def SpellsString (cs : List Char) (text : String) : Prop :=
  ∃ body, cs = '"' :: body ++ ['"'] ∧ SpellsText body text.toList

/-! ## 3. Numbers -/

/-- One digit or more. -/
def IsDigits (ds : List Char) : Prop :=
  ds ≠ [] ∧ ∀ d ∈ ds, d.isDigit = true

/-- The digits of a whole number: none stands behind a leading zero. -/
def IsWhole (ds : List Char) : Prop :=
  IsDigits ds ∧ (ds.head? = some '0' → ds = ['0'])

/-- The number that digits stand for. -/
def digitsValue (ds : List Char) : Nat :=
  ds.foldl (fun n d => n * 10 + (d.toNat - 0x30)) 0

/-- The digits behind a point, as a number with the count of its places. -/
inductive SpellsFraction : List Char → Nat → Nat → Prop where
  | none : SpellsFraction [] 0 0
  | some {ds : List Char} (h : IsDigits ds) :
    SpellsFraction ('.' :: ds) (digitsValue ds) ds.length

/-- An exponent. -/
inductive SpellsExponent : List Char → Int → Prop where
  | none : SpellsExponent [] 0
  | bare {e : Char} {ds : List Char} (he : e = 'e' ∨ e = 'E') (h : IsDigits ds) :
    SpellsExponent (e :: ds) (digitsValue ds)
  | plus {e : Char} {ds : List Char} (he : e = 'e' ∨ e = 'E') (h : IsDigits ds) :
    SpellsExponent (e :: '+' :: ds) (digitsValue ds)
  | minus {e : Char} {ds : List Char} (he : e = 'e' ∨ e = 'E') (h : IsDigits ds) :
    SpellsExponent (e :: '-' :: ds) (-(digitsValue ds : Int))

/-- **A number behind its sign.** With a fraction or an exponent it is the nearest float. -/
inductive SpellsNumber (negative : Bool) : List Char → Json → Prop where
  | int {ds : List Char} (h : IsWhole ds) (hlimit : ds.length ≤ digitLimit) :
    SpellsNumber negative ds
      (.int (if negative then -(digitsValue ds : Int) else digitsValue ds))
  | float {ds f x : List Char} {n places : Nat} {e : Int} (h : IsWhole ds)
    (hf : SpellsFraction f n places) (hx : SpellsExponent x e) (hne : f ++ x ≠ []) :
    SpellsNumber negative (ds ++ (f ++ x))
      (.float (if negative then
        -Decimal.toFloat (digitsValue ds * Nat.pow 10 places + n) (e - places)
      else Decimal.toFloat (digitsValue ds * Nat.pow 10 places + n) (e - places)))

/-- A number goes on with a text: with a digit, a fraction or an exponent. -/
inductive Continues : List Char → Prop where
  | digit {d : Char} {rest : List Char} (hd : d.isDigit = true) : Continues (d :: rest)
  | fraction {d : Char} {rest : List Char} (hd : d.isDigit = true) : Continues ('.' :: d :: rest)
  | exponent {x rest : List Char} {e : Int} (hx : SpellsExponent x e) (hne : x ≠ []) :
    Continues (x ++ rest)

/-! ## 4. Values -/

/-- **A value that is not built of others.** -/
inductive SpellsAtom : List Char → Json → Prop where
  | null : SpellsAtom ['n', 'u', 'l', 'l'] .null
  | yes : SpellsAtom ['t', 'r', 'u', 'e'] (.bool true)
  | no : SpellsAtom ['f', 'a', 'l', 's', 'e'] (.bool false)
  | nan : SpellsAtom ['N', 'a', 'N'] (.float (0 / 0))
  | infinity : SpellsAtom ['I', 'n', 'f', 'i', 'n', 'i', 't', 'y'] (.float (1 / 0))
  | negInfinity : SpellsAtom ['-', 'I', 'n', 'f', 'i', 'n', 'i', 't', 'y'] (.float (-1 / 0))
  | str {cs : List Char} {text : String} (h : SpellsString cs text) : SpellsAtom cs (.str text)
  | number {cs : List Char} {v : Json} (h : SpellsNumber false cs v) : SpellsAtom cs v
  | negative {cs : List Char} {v : Json} (h : SpellsNumber true cs v) : SpellsAtom ('-' :: cs) v

/-- A member of an object: its key and its value. -/
structure Member where
  key : Padded String
  value : Padded Json

/-- The whole member. -/
def Member.chars (member : Member) : List Char :=
  member.key.chars ++ ':' :: member.value.chars

/-- Pieces that are each followed by a comma. -/
def listed (pieces : List (List Char)) : List Char :=
  pieces.flatMap (· ++ [','])

/-- The members of an object, after some others. Of members with one key the last counts. -/
def collect (taken : List (String × Json)) (members : List Member) : List (String × Json) :=
  members.foldl (fun taken m => insertMember m.key.value m.value.value taken) taken

/-- **The texts that stand for a value**, with room for so many levels of nesting. -/
inductive Spells : Nat → List Char → Json → Prop where
  | atom {room : Nat} {cs : List Char} {v : Json} (h : SpellsAtom cs v) : Spells room cs v
  | emptyArray {room : Nat} {bs : List Char} (hbs : IsBlank bs) :
    Spells (room + 1) ('[' :: (bs ++ [']'])) (.arr [])
  | array {room : Nat} {lead : List (Padded Json)} {last : Padded Json}
    (hlead : ∀ p ∈ lead, Spells room p.text p.value) (hlast : Spells room last.text last.value) :
    Spells (room + 1) ('[' :: (listed (lead.map (·.chars)) ++ (last.chars ++ [']'])))
      (.arr ((lead ++ [last]).map (·.value)))
  | emptyObject {room : Nat} {bs : List Char} (hbs : IsBlank bs) :
    Spells (room + 1) ('\x7b' :: (bs ++ ['\x7d'])) (.obj [])
  | object {room : Nat} {lead : List Member} {last : Member}
    (hkeys : ∀ m ∈ lead, SpellsString m.key.text m.key.value)
    (hvalues : ∀ m ∈ lead, Spells room m.value.text m.value.value)
    (hkey : SpellsString last.key.text last.key.value)
    (hvalue : Spells room last.value.text last.value.value) :
    Spells (room + 1) ('\x7b' :: (listed (lead.map (·.chars)) ++ (last.chars ++ ['\x7d'])))
      (.obj (collect [] (lead ++ [last])))

/-- **A limit is met** in front of a text or inside of it, before anything that the grammar does not
allow. -/
inductive Meets : Nat → List Char → Fault → Prop where
  | array {rest : List Char} : Meets 0 ('[' :: rest) (.tooDeep true)
  | object {rest : List Char} : Meets 0 ('\x7b' :: rest) (.tooDeep false)
  | number {room : Nat} {ds rest : List Char} (h : IsWhole ds) (hlimit : digitLimit < ds.length)
    (hrest : ¬ Continues rest) : Meets room (ds ++ rest) (.tooLong ds.length)
  | negative {room : Nat} {ds rest : List Char} (h : IsWhole ds) (hlimit : digitLimit < ds.length)
    (hrest : ¬ Continues rest) : Meets room ('-' :: (ds ++ rest)) (.tooLong ds.length)
  | item {room : Nat} {lead : List (Padded Json)} {bs cs : List Char} {fault : Fault}
    (hlead : ∀ p ∈ lead, Spells room p.text p.value) (hbs : IsBlank bs) (h : Meets room cs fault) :
    Meets (room + 1) ('[' :: (listed (lead.map (·.chars)) ++ (bs ++ cs))) fault
  | member {room : Nat} {lead : List Member} {key : Padded String} {bs cs : List Char}
    {fault : Fault} (hkeys : ∀ m ∈ lead, SpellsString m.key.text m.key.value)
    (hvalues : ∀ m ∈ lead, Spells room m.value.text m.value.value)
    (hkey : SpellsString key.text key.value) (hbs : IsBlank bs) (h : Meets room cs fault) :
    Meets (room + 1)
      ('\x7b' :: (listed (lead.map (·.chars)) ++ (key.chars ++ ':' :: (bs ++ cs)))) fault

/-! ## 5. Whole texts -/

/-- **A text stands for a value**, with room for so many levels of nesting. -/
def IsDocument (room : Nat) (text : String) (value : Json) : Prop :=
  ∃ piece : Padded Json, text.toList = piece.chars ∧ piece.value = value ∧
    Spells room piece.text value

/-- A text meets a limit. -/
def MeetsLimit (room : Nat) (text : String) (fault : Fault) : Prop :=
  ∃ bs cs, text.toList = bs ++ cs ∧ IsBlank bs ∧ Meets room cs fault

end CodeAtlas.Json
