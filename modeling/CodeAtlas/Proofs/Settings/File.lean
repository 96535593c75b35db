import CodeAtlas.Proofs.Json.Document
import CodeAtlas.Settings.File

/-!
# Loading the settings

Loading gives the settings of the object that the file holds, and the defaults for whatever holds
none, with two exceptions that are not caught: bytes that are no text, and a text that meets a limit
of what can be read (`Fails`, `load_eq_ok_iff`). A text with few brackets and short numbers meets
none (`Json.IsModest`), so among texts the failures are far off.
-/

namespace CodeAtlas

namespace Json

variable {cs : List Char} {room : Nat} {fault : Fault}

/-! ## 1. Where a limit is met -/

/-- Whether an array or an object opens with a character. -/
def isOpening (c : Char) : Bool :=
  c == '[' || c == '\x7b'

/-- The brackets and braces that open in a text, those in strings included. -/
def openings (cs : List Char) : Nat :=
  cs.countP isOpening

/-- More digits stand in a row than a whole number may have. -/
def IsLong (cs : List Char) : Prop :=
  ∃ before ds after, cs = before ++ (ds ++ after) ∧ (∀ d ∈ ds, d.isDigit = true) ∧
    digitLimit < ds.length

/-- **A text is far from every limit.** -/
structure IsModest (room : Nat) (cs : List Char) : Prop where
  openings_le : openings cs ≤ room
  not_isLong : ¬ IsLong cs

theorem openings_append (before cs : List Char) :
    openings (before ++ cs) = openings before + openings cs :=
  List.countP_append

theorem openings_cons {c : Char} (h : isOpening c = true) (cs : List Char) :
    openings (c :: cs) = openings cs + 1 :=
  List.countP_cons_of_pos h

theorem IsLong.append (h : IsLong cs) (before : List Char) : IsLong (before ++ cs) := by
  obtain ⟨front, ds, after, rfl, hds, hlimit⟩ := h
  exact ⟨before ++ front, ds, after, (List.append_assoc _ _ _).symm, hds, hlimit⟩

/-- **Where a limit is met**, brackets open to the end of the room, or there are too many digits.
The induction goes up the levels: one bracket more is one level more, whatever is behind it. -/
theorem Meets.openings_or_isLong (h : Meets room cs fault) : room < openings cs ∨ IsLong cs := by
  have hstep : ∀ {room : Nat} {c : Char} {lead inner : List Char}, isOpening c = true →
      room < openings inner ∨ IsLong inner →
      room + 1 < openings (c :: (lead ++ inner)) ∨ IsLong (c :: (lead ++ inner)) := by
    rintro room c lead inner hc (hroom | hlong)
    · left
      rw [openings_cons hc, openings_append]
      omega
    · exact Or.inr (hlong.append (c :: lead))
  induction h with
  | array =>
    left
    rw [openings_cons rfl]
    omega
  | object =>
    left
    rw [openings_cons rfl]
    omega
  | @number room ds rest hds hlimit => exact Or.inr ⟨[], ds, rest, rfl, hds.1.2, hlimit⟩
  | @negative room ds rest hds hlimit => exact Or.inr ⟨['-'], ds, rest, rfl, hds.1.2, hlimit⟩
  | @item room lead bs cs fault hlead hbs h ih =>
    rw [← List.append_assoc]
    exact hstep rfl ih
  | @member room lead key bs cs fault hkeys hvalues hkey hbs h ih =>
    have hsplit : listed (lead.map (·.chars)) ++ (key.chars ++ ':' :: (bs ++ cs))
        = (listed (lead.map (·.chars)) ++ (key.chars ++ ':' :: bs)) ++ cs := by simp
    rw [hsplit]
    exact hstep rfl ih

/-- **A modest text meets no limit.** -/
theorem IsModest.not_meetsLimit {text : String} (h : IsModest room text.toList) :
    ¬ MeetsLimit room text fault := by
  rintro ⟨bs, cs, htext, -, hmeets⟩
  obtain ⟨hopenings, hlong⟩ := h
  rw [htext] at hopenings hlong
  rcases hmeets.openings_or_isLong with hroom | hmore
  · rw [openings_append] at hopenings
    omega
  · exact hlong (hmore.append bs)

end Json

namespace SettingsFile

variable {bytes : List UInt8} {text : String} {room : Nat}

/-! ## 2. What a file holds -/

/-- **A file's text**: its bytes are the UTF-8 of a text, which is read with line feeds as the only
line ends. -/
def IsTextOf (text : String) (bytes : List UInt8) : Prop :=
  ∃ written : String, written.toByteArray = ⟨bytes.toArray⟩ ∧
    text = Text.onString Text.unixNewlines written

/-- A file holds an object, with room for so many levels of nesting. -/
def HoldsObject (room : Nat) (file : SettingsFile) (members : List (String × Json)) : Prop :=
  ∃ bytes text, file = .content bytes ∧ IsTextOf text bytes ∧ Json.IsDocument room text (.obj members)

/-- **What a file stands for**: the settings of its object, and the defaults if it holds none. -/
inductive StandsFor (room : Nat) : SettingsFile → Settings → Prop where
  | object {file : SettingsFile} {members : List (String × Json)}
    (h : HoldsObject room file members) :
    StandsFor room file (Settings.ofJson (.obj members))
  | other {file : SettingsFile} (h : ∀ members, ¬ HoldsObject room file members) :
    StandsFor room file {}

/-- **What loading fails for**: bytes that are no text, and a text that meets a limit. -/
inductive Fails (room : Nat) : SettingsFile → Failure → Prop where
  | undecodable {bytes : List UInt8} (h : ∀ text, ¬ IsTextOf text bytes) :
    Fails room (.content bytes) .undecodable
  | nestedTooDeep {bytes : List UInt8} {text : String} {isArray : Bool} (h : IsTextOf text bytes)
    (hmeets : Json.MeetsLimit room text (.tooDeep isArray)) :
    Fails room (.content bytes) (.nestedTooDeep isArray)
  | tooManyDigits {bytes : List UInt8} {text : String} {digits : Nat} (h : IsTextOf text bytes)
    (hmeets : Json.MeetsLimit room text (.tooLong digits)) :
    Fails room (.content bytes) (.tooManyDigits digits)

theorem decode?_eq_some_iff : decode? bytes = some text ↔ IsTextOf text bytes := by
  rw [decode?, Option.map_eq_some_iff]
  refine exists_congr fun written => and_congr ?_ eq_comm
  unfold String.fromUTF8?
  split
  · rw [Option.some.injEq]
    constructor
    · rintro rfl
      rfl
    · intro h
      exact String.toByteArray_inj.1 h.symm
  · rename_i hinvalid
    refine iff_of_false nofun fun h => hinvalid ?_
    rw [← h]
    exact written.isValidUTF8

/-- A file has one text at most. -/
theorem IsTextOf.unique {other : String} (h : IsTextOf text bytes) (hother : IsTextOf other bytes) :
    text = other :=
  Option.some.inj ((decode?_eq_some_iff.2 h).symm.trans (decode?_eq_some_iff.2 hother))

theorem decode?_eq_none (h : ∀ text, ¬ IsTextOf text bytes) : decode? bytes = none := by
  rw [Option.eq_none_iff_forall_ne_some]
  exact fun text htext => h text (decode?_eq_some_iff.1 htext)

/-! ## 3. Loading -/

/-- A file with a text is loaded by what is read of it. -/
theorem load_content (h : IsTextOf text bytes) : load (.content bytes) room = ofText room text := by
  simp only [load, decode?_eq_some_iff.2 h]

/-- **Loading fails exactly for what is said to fail.** -/
theorem load_eq_error_iff {file : SettingsFile} {failure : Failure} :
    load file room = .error failure ↔ Fails room file failure := by
  constructor
  · intro h
    cases file with
    | missing => cases h
    | directory => cases h
    | content bytes =>
      cases htext : decode? bytes with
      | none =>
        simp only [load, htext] at h
        cases h
        refine .undecodable fun text hof => ?_
        rw [decode?_eq_some_iff.2 hof] at htext
        cases htext
      | some text =>
        have hof := decode?_eq_some_iff.1 htext
        rw [load_content hof] at h
        unfold ofText at h
        split at h
        · cases h
        · cases h
        · cases h
        · rename_i isArray hread
          cases h
          exact .nestedTooDeep hof (Json.meetsLimit_iff.2 ⟨hread, nofun⟩)
        · rename_i digits hread
          cases h
          exact .tooManyDigits hof (Json.meetsLimit_iff.2 ⟨hread, nofun⟩)
  · intro h
    cases h with
    | undecodable h => simp only [load, decode?_eq_none h]
    | nestedTooDeep h hmeets =>
      rw [load_content h]
      simp only [ofText, (Json.meetsLimit_iff.1 hmeets).1]
    | tooManyDigits h hmeets =>
      rw [load_content h]
      simp only [ofText, (Json.meetsLimit_iff.1 hmeets).1]

/-- **An object is loaded** for the settings that it stands for. -/
theorem load_of_holdsObject {file : SettingsFile} {members : List (String × Json)}
    (h : HoldsObject room file members) :
    load file room = .ok (Settings.ofJson (.obj members)) := by
  obtain ⟨bytes, text, rfl, htext, hobject⟩ := h
  rw [load_content htext]
  simp only [ofText, Json.ofText_eq_ok_iff.2 hobject]

/-- What is loaded of a file without an object are the defaults. -/
theorem eq_of_load {file : SettingsFile} {settings : Settings} (h : load file room = .ok settings)
    (hother : ∀ members, ¬ HoldsObject room file members) : settings = {} := by
  cases file with
  | missing => exact (Except.ok.inj h).symm
  | directory => exact (Except.ok.inj h).symm
  | content bytes =>
    cases htext : decode? bytes with
    | none =>
      simp only [load, htext] at h
      cases h
    | some text =>
      have hof := decode?_eq_some_iff.1 htext
      rw [load_content hof] at h
      unfold ofText at h
      split at h
      · rename_i members hread
        exact absurd ⟨bytes, text, rfl, hof, Json.ofText_eq_ok_iff.1 hread⟩ (hother members)
      · exact (Except.ok.inj h).symm
      · exact (Except.ok.inj h).symm
      · cases h
      · cases h

/-- **What is loaded is what the file stands for**, and it is loaded if nothing fails. -/
theorem load_eq_ok_iff {file : SettingsFile} {settings : Settings} :
    load file room = .ok settings ↔
      StandsFor room file settings ∧ ∀ failure, ¬ Fails room file failure := by
  constructor
  · intro h
    refine ⟨?_, fun failure hfails => ?_⟩
    · by_cases hobject : ∃ members, HoldsObject room file members
      · obtain ⟨members, hmembers⟩ := hobject
        rw [load_of_holdsObject hmembers] at h
        cases h
        exact .object hmembers
      · rw [eq_of_load h (not_exists.1 hobject)]
        exact .other (not_exists.1 hobject)
    · rw [load_eq_error_iff.2 hfails] at h
      cases h
  · rintro ⟨hstands, hfails⟩
    cases hload : load file room with
    | error failure => exact absurd (load_eq_error_iff.1 hload) (hfails failure)
    | ok loaded =>
      cases hstands with
      | object h =>
        rw [load_of_holdsObject h] at hload
        exact hload.symm
      | other h => rw [eq_of_load hload h]

/-- A modest text fails for nothing. -/
theorem not_fails_of_isModest (htext : IsTextOf text bytes) (h : Json.IsModest room text.toList)
    (failure : Failure) : ¬ Fails room (.content bytes) failure := by
  intro hfails
  cases hfails with
  | undecodable hnone => exact hnone text htext
  | nestedTooDeep hof hmeets =>
    rw [hof.unique htext] at hmeets
    exact h.not_meetsLimit hmeets
  | tooManyDigits hof hmeets =>
    rw [hof.unique htext] at hmeets
    exact h.not_meetsLimit hmeets

/-- **What loading gives for a file**, with room for so many levels: what the file stands for, or a
failure, and which of them. -/
structure LoadsOrFails (room : Nat) (file : SettingsFile) : Prop where
  /-- What is loaded is what the file stands for, and nothing but the failures is in its way. -/
  loads : ∀ settings, load file room = .ok settings ↔
    StandsFor room file settings ∧ ∀ failure, ¬ Fails room file failure
  fails : ∀ failure, load file room = .error failure ↔ Fails room file failure
  /-- Where there is nothing to read, nothing fails. -/
  absent : (∀ bytes, file ≠ .content bytes) → load file room = .ok {}
  /-- No text fails that is far from the limits. -/
  modest : ∀ bytes text, file = .content bytes → IsTextOf text bytes →
    Json.IsModest room text.toList → ∀ failure, ¬ Fails room file failure

/-- **Settings are loaded for what the file stands for**, unless the file is no text, or its text
meets a limit. -/
theorem loadsOrFails (room : Nat) (file : SettingsFile) : LoadsOrFails room file where
  loads _ := load_eq_ok_iff
  fails _ := load_eq_error_iff
  absent h := by
    cases file with
    | missing => rfl
    | directory => rfl
    | content bytes => exact absurd rfl (h bytes)
  modest bytes text heq htext hmodest := by
    rw [heq]
    exact not_fails_of_isModest htext hmodest

/-- A stray byte is no text. The file stands for the defaults, and loading it fails. -/
theorem load_strayByte : StandsFor 990 (.content [0xff]) {} ∧
    load (.content [0xff]) 990 = .error .undecodable := by
  have hnone : decode? [0xff] = none := by decide +kernel
  refine ⟨.other ?_, by simp only [load, hnone]⟩
  rintro members ⟨bytes, text, heq, htext, -⟩
  cases heq
  rw [decode?_eq_some_iff.2 htext] at hnone
  cases hnone

end SettingsFile

end CodeAtlas
