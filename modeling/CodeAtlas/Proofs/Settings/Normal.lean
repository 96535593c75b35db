import CodeAtlas.Proofs.Table
import CodeAtlas.Settings.Basic

/-!
# Settings are normalised as they are read

A setting is read off what stands under its own key: the value if it fits, the default if it does not
(`value_ofJson_of_fits`, `value_ofJson_of_not_fits`). `Field.Fits` says what fits without the readers, and
that the readers take these values and give nothing else is one law for each (`Reads`). The rest follows
from the two equations: other keys do not matter, what is read always fits, and so it is read again as it
was written (`ofJson_toJson_iff`).
-/

namespace CodeAtlas

/-! ## 1. Members of an object -/

namespace Json

variable {members : List (String × Json)} {key other : String}

theorem insertMember_eq (key : String) (value : Json) (members : List (String × Json)) :
    insertMember key value members = Table.put key value members := by
  induction members with
  | nil => rfl
  | cons member members ih => rw [insertMember, ih, Table.put]

/-- A member under another key is not seen. -/
theorem get?_insertMember (h : other ≠ key) (value : Json) :
    (obj (insertMember other value members)).get? key = (obj members).get? key := by
  rw [get?, get?, insertMember_eq, Table.find?_put, if_neg (mt eq_of_beq h)]

theorem get?_filter (h : other ≠ key) :
    (obj (members.filter (·.1 != other))).get? key = (obj members).get? key := by
  rw [get?, get?, Table.find?_filter_of_ne _ h]

end Json

namespace Settings

/-! ## 2. What fits -/

/-- A setting. -/
inductive Field where
  | includePatterns
  | excludedPatterns
  | usesDefaultExcludes
  | maxFiles
  | defaultDepth
  deriving DecidableEq, Repr

namespace Field

/-- Every setting, in the order in which they are written. -/
def all : List Field :=
  [includePatterns, excludedPatterns, usesDefaultExcludes, maxFiles, defaultDepth]

/-- The key that a setting stands under. -/
def key : Field → String
  | includePatterns => "include_patterns"
  | excludedPatterns => "excluded_patterns"
  | usesDefaultExcludes => "use_default_excludes"
  | maxFiles => "max_files"
  | defaultDepth => "default_depth"

/-- **What fits a setting**: a value of its type, within its bound. -/
def Fits : Field → Json → Prop
  | includePatterns, value => ∃ texts : List String, value = .arr (texts.map .str)
  | excludedPatterns, value => ∃ text, value = .str text
  | usesDefaultExcludes, value => ∃ flag, value = .bool flag
  | maxFiles, value => ∃ n, 1 ≤ n ∧ value = .int n
  | defaultDepth, value => ∃ n, 0 ≤ n ∧ value = .int n

end Field

/-- The value of a setting as it is written. -/
def value (settings : Settings) : Field → Json
  | .includePatterns => .arr (settings.includePatterns.map .str)
  | .excludedPatterns => .str settings.excludedPatterns
  | .usesDefaultExcludes => .bool settings.usesDefaultExcludes
  | .maxFiles => .int settings.maxFiles
  | .defaultDepth => .int settings.defaultDepth

/-- Settings are written member by member. -/
theorem toJson_eq (settings : Settings) :
    settings.toJson = .obj (Field.all.map fun field => (field.key, settings.value field)) := rfl

theorem get?_toJson (settings : Settings) (field : Field) :
    settings.toJson.get? field.key = some (settings.value field) := by
  cases field <;> rfl

theorem map_str_inj {a b : List String} (h : a.map Json.str = b.map Json.str) : a = b :=
  List.map_inj_right (fun _ _ => Json.str.inj) |>.1 h

/-- Settings are the same if all values are. -/
theorem eq_of_value {a b : Settings} (h : ∀ field, a.value field = b.value field) : a = b := by
  have hincludes := map_str_inj (Json.arr.inj (h .includePatterns))
  have hexcluded := Json.str.inj (h .excludedPatterns)
  have hdefaults := Json.bool.inj (h .usesDefaultExcludes)
  have hfiles := Json.int.inj (h .maxFiles)
  have hdepth := Json.int.inj (h .defaultDepth)
  cases a
  cases b
  congr

/-! ## 3. Reading one setting -/

section Reading

variable {α : Type} {field : Field} {read : Json → Option α} {write : α → Json} {object value : Json}
  {absent : α}

/-- **A reader of a setting** takes what fits, and gives what would be written the same. -/
structure Reads (field : Field) (read : Json → Option α) (write : α → Json) : Prop where
  fits_iff : ∀ value, field.Fits value ↔ ∃ a, read value = some a
  eq_write : ∀ value a, read value = some a → value = write a

theorem Reads.write_setting (h : Reads field read write) {key : String}
    (hget : object.get? key = some value) (hfits : field.Fits value) :
    write (setting object key read absent) = value := by
  obtain ⟨a, ha⟩ := (h.fits_iff value).1 hfits
  rw [setting, hget, Option.bind_some, ha, Option.getD_some, ← h.eq_write value a ha]

theorem Reads.setting_eq_absent (h : Reads field read write) {key : String}
    (hget : ∀ value, object.get? key = some value → ¬ field.Fits value) :
    setting object key read absent = absent := by
  have hnone : (object.get? key).bind read = none := by
    rw [Option.bind_eq_none_iff]
    intro value hvalue
    rw [Option.eq_none_iff_forall_ne_some]
    exact fun a ha => hget value hvalue ((h.fits_iff value).2 ⟨a, ha⟩)
  rw [setting, hnone, Option.getD_none]

/-! ## 4. The readers -/

theorem text?_eq_some_iff {text : String} : text? value = some text ↔ value = .str text := by
  constructor
  · intro h
    cases value <;> cases h
    rfl
  · rintro rfl
    rfl

theorem flag?_eq_some_iff {flag : Bool} : flag? value = some flag ↔ value = .bool flag := by
  constructor
  · intro h
    cases value <;> cases h
    rfl
  · rintro rfl
    rfl

theorem atLeast?_eq_some_iff {bound n : Int} :
    atLeast? bound value = some n ↔ bound ≤ n ∧ value = .int n := by
  constructor
  · intro h
    unfold atLeast? at h
    split at h
    · obtain ⟨hbound, hn⟩ := Option.ite_none_right_eq_some.1 h
      cases hn
      exact ⟨hbound, rfl⟩
    · cases h
  · rintro ⟨hbound, rfl⟩
    exact if_pos hbound

/-- A list is read if it holds nothing but texts. -/
theorem texts?_eq_some_iff {texts : List String} :
    texts? value = some texts ↔ value = .arr (texts.map .str) := by
  constructor
  · intro h
    cases value with
    | arr items =>
      congr 1
      rw [texts?] at h
      induction items generalizing texts with
      | nil =>
        cases h
        rfl
      | cons item items ih =>
        rw [List.mapM_cons] at h
        cases item with
        | str text =>
          rw [Option.bind_eq_bind, Option.bind_some] at h
          obtain ⟨rest, hrest, htexts⟩ := Option.bind_eq_some_iff.1 h
          cases htexts
          rw [List.map_cons, ih hrest]
        | _ => cases h
    | _ => cases h
  · rintro rfl
    rw [texts?]
    induction texts with
    | nil => rfl
    | cons text texts ih =>
      rw [List.map_cons, List.mapM_cons, ih]
      rfl

theorem reads_texts? : Reads .includePatterns texts? (fun texts => .arr (texts.map .str)) where
  fits_iff _ := exists_congr fun _ => texts?_eq_some_iff.symm
  eq_write _ _ := texts?_eq_some_iff.1

theorem reads_text? : Reads .excludedPatterns text? .str where
  fits_iff _ := exists_congr fun _ => text?_eq_some_iff.symm
  eq_write _ _ := text?_eq_some_iff.1

theorem reads_flag? : Reads .usesDefaultExcludes flag? .bool where
  fits_iff _ := exists_congr fun _ => flag?_eq_some_iff.symm
  eq_write _ _ := flag?_eq_some_iff.1

theorem reads_maxFiles : Reads .maxFiles (atLeast? 1) .int where
  fits_iff _ := exists_congr fun _ => atLeast?_eq_some_iff.symm
  eq_write _ _ h := (atLeast?_eq_some_iff.1 h).2

theorem reads_defaultDepth : Reads .defaultDepth (atLeast? 0) .int where
  fits_iff _ := exists_congr fun _ => atLeast?_eq_some_iff.symm
  eq_write _ _ h := (atLeast?_eq_some_iff.1 h).2

end Reading

/-! ## 5. Reading all of them -/

section Object

variable {object other : Json} {field : Field} {value : Json}

/-- **A value that fits is taken.** -/
theorem value_ofJson_of_fits (hget : object.get? field.key = some value) (hfits : field.Fits value) :
    (ofJson object).value field = value := by
  cases field with
  | includePatterns => exact reads_texts?.write_setting hget hfits
  | excludedPatterns => exact reads_text?.write_setting hget hfits
  | usesDefaultExcludes => exact reads_flag?.write_setting hget hfits
  | maxFiles => exact reads_maxFiles.write_setting hget hfits
  | defaultDepth => exact reads_defaultDepth.write_setting hget hfits

/-- **Where none fits, the default is.** -/
theorem value_ofJson_of_not_fits
    (hget : ∀ value, object.get? field.key = some value → ¬ field.Fits value) :
    (ofJson object).value field = ({} : Settings).value field := by
  cases field with
  | includePatterns =>
    exact congrArg (fun texts => Json.arr (texts.map .str)) (reads_texts?.setting_eq_absent hget)
  | excludedPatterns => exact congrArg Json.str (reads_text?.setting_eq_absent hget)
  | usesDefaultExcludes => exact congrArg Json.bool (reads_flag?.setting_eq_absent hget)
  | maxFiles =>
    exact congrArg Json.int (reads_maxFiles.setting_eq_absent hget)
  | defaultDepth =>
    exact congrArg Json.int (reads_defaultDepth.setting_eq_absent hget)

/-- Every default fits. -/
theorem fits_default (field : Field) : field.Fits (({} : Settings).value field) := by
  cases field with
  | includePatterns => exact ⟨_, rfl⟩
  | excludedPatterns => exact ⟨_, rfl⟩
  | usesDefaultExcludes => exact ⟨_, rfl⟩
  | maxFiles => exact ⟨_, by decide, rfl⟩
  | defaultDepth => exact ⟨_, by decide, rfl⟩

/-- **What is read fits.** -/
theorem fits_ofJson (object : Json) (field : Field) : field.Fits ((ofJson object).value field) := by
  by_cases h : ∃ value, object.get? field.key = some value ∧ field.Fits value
  · obtain ⟨value, hget, hfits⟩ := h
    rwa [value_ofJson_of_fits hget hfits]
  · rw [value_ofJson_of_not_fits fun value hget hfits => h ⟨value, hget, hfits⟩]
    exact fits_default field

/-- **A setting has its own key** and no other. -/
theorem value_ofJson_congr (h : other.get? field.key = object.get? field.key) :
    (ofJson other).value field = (ofJson object).value field := by
  by_cases hfits : ∃ value, object.get? field.key = some value ∧ field.Fits value
  · obtain ⟨value, hget, hfits⟩ := hfits
    rw [value_ofJson_of_fits hget hfits, value_ofJson_of_fits (h.trans hget) hfits]
  · have hnone : ∀ value, object.get? field.key = some value → ¬ field.Fits value :=
      fun value hget hvalue => hfits ⟨value, hget, hvalue⟩
    rw [value_ofJson_of_not_fits hnone, value_ofJson_of_not_fits fun value hget =>
      hnone value (h ▸ hget)]

/-- **Settings are read again as they were written** if they fit, and only then. -/
theorem ofJson_toJson_iff {settings : Settings} :
    ofJson settings.toJson = settings ↔ ∀ field : Field, field.Fits (settings.value field) := by
  constructor
  · intro h field
    rw [← h]
    exact fits_ofJson _ field
  · intro h
    exact eq_of_value fun field => value_ofJson_of_fits (get?_toJson settings field) (h field)

end Object

/-! ## 6. The normaliser -/

/-- **A normaliser of settings**: how they are read off any object, against how they are written. -/
structure IsNormaliser (read : Json → Settings) (write : Settings → Json) : Prop where
  /-- Every setting that is read has its type and keeps its bound. -/
  fits : ∀ members (field : Field), field.Fits ((read (.obj members)).value field)
  one_le_maxFiles : ∀ members, 1 ≤ (read (.obj members)).maxFiles
  zero_le_defaultDepth : ∀ members, 0 ≤ (read (.obj members)).defaultDepth
  /-- A value that fits is the value of the setting. -/
  kept : ∀ members (field : Field) value, (Json.obj members).get? field.key = some value →
    field.Fits value → (read (.obj members)).value field = value
  /-- Without one, the setting has its default. -/
  default : ∀ members (field : Field),
    (∀ value, (Json.obj members).get? field.key = some value → ¬ field.Fits value) →
      (read (.obj members)).value field = ({} : Settings).value field
  /-- Objects that agree under the key of a setting agree on the setting. -/
  own : ∀ members others (field : Field),
    (Json.obj others).get? field.key = (Json.obj members).get? field.key →
      (read (.obj others)).value field = (read (.obj members)).value field
  /-- A member under another key, known or not, may come, change and go. -/
  insertMember : ∀ members (field : Field) other value, other ≠ field.key →
    (read (.obj (Json.insertMember other value members))).value field
      = (read (.obj members)).value field
  filter : ∀ members (field : Field) other, other ≠ field.key →
    (read (.obj (members.filter (·.1 != other)))).value field = (read (.obj members)).value field
  /-- What was read is written member by member, and read again as it was. -/
  write_eq : ∀ settings : Settings,
    write settings = .obj (Field.all.map fun field => (field.key, settings.value field))
  read_write : ∀ members, read (write (read (.obj members))) = read (.obj members)
  /-- So whatever the settings were, reading what is written of them is done once for all. -/
  idempotent : ∀ settings, read (write (read (write settings))) = read (write settings)

/-- **Reading normalises settings.** -/
theorem isNormaliser_ofJson : IsNormaliser ofJson toJson where
  fits _ field := fits_ofJson _ field
  one_le_maxFiles members := by
    obtain ⟨n, hn, heq⟩ := fits_ofJson (.obj members) .maxFiles
    rwa [← Json.int.inj heq] at hn
  zero_le_defaultDepth members := by
    obtain ⟨n, hn, heq⟩ := fits_ofJson (.obj members) .defaultDepth
    rwa [← Json.int.inj heq] at hn
  kept _ _ _ hget hfits := value_ofJson_of_fits hget hfits
  default _ _ hget := value_ofJson_of_not_fits hget
  own _ _ _ h := value_ofJson_congr h
  insertMember _ _ _ value h := value_ofJson_congr (Json.get?_insertMember h value)
  filter _ _ _ h := value_ofJson_congr (Json.get?_filter h)
  write_eq := toJson_eq
  read_write _ := ofJson_toJson_iff.2 (fits_ofJson _)
  idempotent _ := ofJson_toJson_iff.2 (fits_ofJson _)

end Settings

end CodeAtlas
