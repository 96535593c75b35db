import CodeAtlas.Proofs.Json.Grammar
import Mathlib.Data.List.TakeWhile

/-!
# Reading numbers

A number is read part by part, its whole digits, its fraction and its exponent, and each part goes
as far as it can (`Splits`). So what is read of a number is spelt, but what is spelt is read only
where the text does not go on with it (`spellsNumber_of_readNumber`, `readNumber_append`). The limit
on digits holds of whole numbers, and it counts at the end of the number (`readNumber_of_limit`).
-/

namespace CodeAtlas.Json

variable {cs rest ds : List Char} {c : Char} {n : Nat} {v : Json} {fault : Fault}

/-! ## 1. Digits -/

/-- No digit stands in front of a text. -/
def NoDigit (cs : List Char) : Prop :=
  ∀ d rest, cs = d :: rest → d.isDigit = false

/-- No fraction stands in front of a text. -/
def NoFraction (cs : List Char) : Prop :=
  ∀ d rest, cs = '.' :: d :: rest → d.isDigit = false

/-- No exponent stands in front of a text. -/
def NoExponent (cs : List Char) : Prop :=
  ∀ x e rest, SpellsExponent x e → cs = x ++ rest → x = []

theorem noDigit_of_not_continues (h : ¬ Continues rest) : NoDigit rest := by
  rintro d more rfl
  by_contra hd
  exact h (.digit (by simpa using hd))

theorem noFraction_of_not_continues (h : ¬ Continues rest) : NoFraction rest := by
  rintro d more rfl
  by_contra hd
  exact h (.fraction (by simpa using hd))

theorem noExponent_of_not_continues (h : ¬ Continues rest) : NoExponent rest := by
  rintro x e more hx rfl
  by_contra hne
  exact h (.exponent hx hne)

/-- A text that a number does not go on with has none of the three in front. -/
theorem not_continues (hd : NoDigit rest) (hf : NoFraction rest) (hx : NoExponent rest) :
    ¬ Continues rest := by
  rintro (h | h | ⟨h, hne⟩)
  · rw [hd _ _ rfl] at h
    cases h
  · rw [hf _ _ rfl] at h
    cases h
  · exact hne (hx _ _ _ h rfl)

theorem noDigit_cons (h : c.isDigit = false) (cs : List Char) : NoDigit (c :: cs) := by
  rintro d rest heq
  rwa [← (List.cons.inj heq).1]

/-- The digits in front are told apart from the rest. -/
theorem exists_digits (cs : List Char) :
    ∃ ds rest, cs = ds ++ rest ∧ (∀ d ∈ ds, d.isDigit = true) ∧ NoDigit rest := by
  refine ⟨cs.takeWhile Char.isDigit, cs.dropWhile Char.isDigit,
    List.takeWhile_append_dropWhile.symm, fun d hd => List.mem_takeWhile_imp hd, ?_⟩
  intro d rest heq
  have hhead := List.head?_dropWhile_not Char.isDigit cs
  rw [heq] at hhead
  simpa using hhead

theorem readDigits_append (h : ∀ d ∈ ds, d.isDigit = true) (hrest : NoDigit rest) :
    readDigits (ds ++ rest) = (digitsValue ds, ds.length, rest) := by
  have htake : (ds ++ rest).takeWhile Char.isDigit = ds := by
    rw [List.takeWhile_append_of_pos h]
    cases rest with
    | nil => simp
    | cons d more => simp [hrest d more rfl]
  have hdrop : (ds ++ rest).dropWhile Char.isDigit = rest := by
    rw [List.dropWhile_append_of_pos h]
    cases rest with
    | nil => simp
    | cons d more => simp [hrest d more rfl]
  simp only [readDigits, htake, hdrop, digitsValue]

theorem readDigits_nil (h : NoDigit rest) : readDigits rest = (0, 0, rest) := by
  have hnone : ∀ d ∈ ([] : List Char), d.isDigit = true := fun _ hd => absurd hd List.not_mem_nil
  exact readDigits_append hnone h

/-! ## 2. Parts of a number -/

/-- The whole part of a number with its count of digits. -/
def readWhole (cs : List Char) : Nat × Nat × List Char :=
  match cs with
  | '0' :: more => (0, 1, more)
  | _ => readDigits cs

/-- The fraction with its count of places. -/
def readFraction (cs : List Char) : Nat × Nat × List Char :=
  match cs with
  | '.' :: more =>
    let (n, places, after) := readDigits more
    if places == 0 then (0, 0, cs) else (n, places, after)
  | _ => (0, 0, cs)

/-- **What a number is**, by its parts. -/
def numberOf (negative : Bool) (ds : List Char) (n places : Nat) (e : Int) (isFloat : Bool) :
    Except Fault Json :=
  if isFloat then
    let x := Decimal.toFloat (digitsValue ds * Nat.pow 10 places + n) (e - places)
    .ok (.float (if negative then -x else x))
  else if digitLimit < ds.length then .error (.tooLong ds.length)
  else .ok (.int (if negative then -(digitsValue ds : Int) else digitsValue ds))

theorem readWhole_append (h : IsWhole ds) (hrest : ds = ['0'] ∨ NoDigit rest) :
    readWhole (ds ++ rest) = (digitsValue ds, ds.length, rest) := by
  obtain ⟨⟨hne, hdigits⟩, hzero⟩ := h
  cases ds with
  | nil => exact absurd rfl hne
  | cons d ds =>
    by_cases hd : d = '0'
    · cases hzero (congrArg some hd)
      rfl
    · have hno : NoDigit rest := hrest.resolve_left fun heq => hd (List.cons.inj heq).1
      rw [← readDigits_append hdigits hno]
      unfold readWhole
      split
      · rename_i heq
        exact absurd (List.cons.inj heq).1 hd
      · rfl

theorem readFraction_append (h : IsDigits ds) (hrest : NoDigit rest) :
    readFraction ('.' :: ds ++ rest) = (digitsValue ds, ds.length, rest) := by
  have hlength : (ds.length == 0) = false := by
    rw [beq_eq_false_iff_ne]
    exact mt List.length_eq_zero_iff.1 h.1
  simp only [List.cons_append, readFraction, readDigits_append h.2 hrest, hlength,
    Bool.false_eq_true, if_false]

theorem readFraction_of_noFraction (h : NoFraction cs) : readFraction cs = (0, 0, cs) := by
  unfold readFraction
  split
  · rename_i more
    have hmore : NoDigit more := by
      rintro d rest rfl
      exact h d rest rfl
    rw [readDigits_nil hmore]
    rfl
  · rfl

/-- The sign of an exponent: whether it is a minus. -/
def readSign (cs : List Char) : Bool × List Char :=
  match cs with
  | '-' :: more => (true, more)
  | '+' :: more => (false, more)
  | _ => (false, cs)

theorem readExponent_cons (hc : c = 'e' ∨ c = 'E') (cs : List Char) : readExponent (c :: cs)
    = if (readDigits (readSign cs).2).2.1 = 0 then none
      else some (if (readSign cs).1 then -((readDigits (readSign cs).2).1 : Int)
        else (readDigits (readSign cs).2).1, (readDigits (readSign cs).2).2.2) := by
  have hmark : (c == 'e' || c == 'E') = true := by simpa using hc
  simp only [readExponent, hmark, if_true, beq_iff_eq]
  rfl

/-- A sign in front of a text, or none. -/
theorem readSign_cases (cs : List Char) :
    cs = '-' :: (readSign cs).2 ∧ (readSign cs).1 = true ∨
      cs = '+' :: (readSign cs).2 ∧ (readSign cs).1 = false ∨
      (readSign cs).2 = cs ∧ (readSign cs).1 = false := by
  unfold readSign
  split
  · exact Or.inl ⟨rfl, rfl⟩
  · exact Or.inr (Or.inl ⟨rfl, rfl⟩)
  · exact Or.inr (Or.inr ⟨rfl, rfl⟩)

theorem readSign_append (h : IsDigits ds) (rest : List Char) :
    readSign (ds ++ rest) = (false, ds ++ rest) := by
  obtain ⟨hne, hdigits⟩ := h
  cases ds with
  | nil => exact absurd rfl hne
  | cons d ds =>
    have hd := hdigits d List.mem_cons_self
    unfold readSign
    split
    · rename_i heq
      rw [(List.cons.inj heq).1] at hd
      exact absurd hd (by decide)
    · rename_i heq
      rw [(List.cons.inj heq).1] at hd
      exact absurd hd (by decide)
    · rfl

theorem readExponent_append {x : List Char} {e : Int} (h : SpellsExponent x e) (hne : x ≠ [])
    (hrest : NoDigit rest) : readExponent (x ++ rest) = some (e, rest) := by
  have hlength : ∀ {ds : List Char}, IsDigits ds → ds.length ≠ 0 :=
    fun hds => mt List.length_eq_zero_iff.1 hds.1
  cases h with
  | none => exact absurd rfl hne
  | bare he hds =>
    rw [List.cons_append, readExponent_cons he, readSign_append hds]
    simp only [readDigits_append hds.2 hrest, hlength hds, if_false, Bool.false_eq_true]
  | plus he hds =>
    rw [List.cons_append, List.cons_append, readExponent_cons he, readSign]
    simp only [readDigits_append hds.2 hrest, hlength hds, if_false, Bool.false_eq_true]
  | minus he hds =>
    rw [List.cons_append, List.cons_append, readExponent_cons he, readSign]
    simp only [readDigits_append hds.2 hrest, hlength hds, if_false, if_true]

/-- An exponent goes on with digits. -/
theorem SpellsExponent.extend {x ds : List Char} {e : Int} (h : SpellsExponent x e) (hne : x ≠ [])
    (hds : ∀ d ∈ ds, d.isDigit = true) : ∃ e, SpellsExponent (x ++ ds) e := by
  have hmore : ∀ {cs : List Char}, IsDigits cs → IsDigits (cs ++ ds) := fun hcs =>
    ⟨List.append_ne_nil_of_left_ne_nil hcs.1 ds,
      fun d hd => (List.mem_append.1 hd).elim (hcs.2 d) (hds d)⟩
  cases h with
  | none => exact absurd rfl hne
  | bare he hcs => exact ⟨_, .bare he (hmore hcs)⟩
  | plus he hcs => exact ⟨_, .plus he (hmore hcs)⟩
  | minus he hcs => exact ⟨_, .minus he (hmore hcs)⟩

theorem readExponent_of_noExponent (h : NoExponent cs) : readExponent cs = none := by
  cases cs with
  | nil => rfl
  | cons c cs =>
    by_cases hc : c = 'e' ∨ c = 'E'
    · rw [readExponent_cons hc, if_pos]
      obtain ⟨ds, rest, hsplit, hds, hrest⟩ := exists_digits (readSign cs).2
      rw [hsplit, readDigits_append hds hrest]
      by_contra hlength
      have hdigits : IsDigits ds := ⟨mt List.length_eq_zero_iff.2 hlength, hds⟩
      -- With a digit there would be an exponent, whatever its sign.
      rcases readSign_cases cs with ⟨hcs, -⟩ | ⟨hcs, -⟩ | ⟨hcs, -⟩
      · rw [hsplit] at hcs
        exact List.cons_ne_nil _ _ (h _ _ rest (.minus hc hdigits) (by rw [hcs]; rfl))
      · rw [hsplit] at hcs
        exact List.cons_ne_nil _ _ (h _ _ rest (.plus hc hdigits) (by rw [hcs]; rfl))
      · rw [hsplit] at hcs
        exact List.cons_ne_nil _ _ (h _ _ rest (.bare hc hdigits) (by rw [← hcs]; rfl))
    · have hmark : (c == 'e' || c == 'E') = false := by simpa using hc
      simp only [readExponent, hmark, Bool.false_eq_true, if_false]

/-- **The parts of a number** in front of a text, each as long as it can be. -/
structure Splits (cs ds f x rest : List Char) (n places : Nat) (e : Int) : Prop where
  eq : cs = ds ++ (f ++ (x ++ rest))
  whole : IsWhole ds
  fraction : SpellsFraction f n places
  exponent : SpellsExponent x e
  afterWhole : ds = ['0'] ∨ NoDigit (f ++ (x ++ rest))
  afterPoint : f ≠ [] → NoDigit (x ++ rest)
  withoutPoint : f = [] → NoFraction (x ++ rest)
  afterExponent : x ≠ [] → NoDigit rest
  withoutExponent : x = [] → NoExponent rest

theorem exists_whole (cs : List Char) : NoDigit cs ∨
    ∃ ds rest, IsWhole ds ∧ cs = ds ++ rest ∧ (ds = ['0'] ∨ NoDigit rest) := by
  obtain ⟨ds, rest, rfl, hds, hrest⟩ := exists_digits cs
  cases ds with
  | nil => exact Or.inl hrest
  | cons d ds =>
    by_cases hd : d = '0'
    · subst hd
      refine Or.inr ⟨['0'], ds ++ rest, ⟨⟨List.cons_ne_nil _ _, ?_⟩, fun _ => rfl⟩, rfl, Or.inl rfl⟩
      intro d hd
      rw [List.mem_singleton.1 hd]
      decide
    · refine Or.inr ⟨d :: ds, rest, ⟨⟨List.cons_ne_nil _ _, hds⟩, fun hhead => ?_⟩, rfl,
        Or.inr hrest⟩
      exact absurd (Option.some.inj hhead) hd

theorem exists_fraction (cs : List Char) : ∃ f n places rest, SpellsFraction f n places ∧
    cs = f ++ rest ∧ (f ≠ [] → NoDigit rest) ∧ (f = [] → NoFraction rest) := by
  by_cases hcs : NoFraction cs
  · exact ⟨[], 0, 0, cs, .none, rfl, fun h => absurd rfl h, fun _ => hcs⟩
  · simp only [NoFraction, not_forall, Bool.not_eq_false] at hcs
    obtain ⟨d, more, rfl, hd⟩ := hcs
    obtain ⟨ds, rest, hsplit, hds, hrest⟩ := exists_digits (d :: more)
    have hne : ds ≠ [] := by
      rintro rfl
      rw [hrest d more hsplit.symm] at hd
      cases hd
    exact ⟨'.' :: ds, _, _, rest, .some ⟨hne, hds⟩, by rw [hsplit, List.cons_append],
      fun _ => hrest, fun h => absurd h (List.cons_ne_nil _ _)⟩

theorem exists_exponent (cs : List Char) : ∃ x e rest, SpellsExponent x e ∧ cs = x ++ rest ∧
    (x ≠ [] → NoDigit rest) ∧ (x = [] → NoExponent rest) := by
  by_cases hcs : NoExponent cs
  · exact ⟨[], 0, cs, .none, rfl, fun h => absurd rfl h, fun _ => hcs⟩
  · simp only [NoExponent, not_forall] at hcs
    obtain ⟨x, e, more, hx, rfl, hne⟩ := hcs
    -- An exponent that could stop earlier goes on to its last digit.
    obtain ⟨ds, rest, rfl, hds, hrest⟩ := exists_digits more
    obtain ⟨e, hmore⟩ := hx.extend hne hds
    exact ⟨x ++ ds, e, rest, hmore, (List.append_assoc _ _ _).symm, fun _ => hrest,
      fun h => absurd h (List.append_ne_nil_of_left_ne_nil hne ds)⟩

/-- A text without a number in front, or its parts. -/
theorem exists_splits (cs : List Char) :
    NoDigit cs ∨ ∃ ds f x rest n places e, Splits cs ds f x rest n places e := by
  rcases exists_whole cs with hcs | ⟨ds, afterWhole, hds, rfl, hwhole⟩
  · exact Or.inl hcs
  · obtain ⟨f, n, places, afterPoint, hf, rfl, hpoint, hnoPoint⟩ := exists_fraction afterWhole
    obtain ⟨x, e, rest, hx, rfl, hexponent, hnoExponent⟩ := exists_exponent afterPoint
    exact Or.inr ⟨ds, f, x, rest, n, places, e, rfl, hds, hf, hx, hwhole, hpoint, hnoPoint,
      hexponent, hnoExponent⟩

theorem SpellsFraction.noDigit_append {f : List Char} {n places : Nat}
    (h : SpellsFraction f n places) (hrest : NoDigit rest) : NoDigit (f ++ rest) := by
  cases h with
  | none => exact hrest
  | some => exact noDigit_cons (by decide) _

theorem SpellsExponent.noDigit_append {x : List Char} {e : Int} (h : SpellsExponent x e)
    (hrest : NoDigit rest) : NoDigit (x ++ rest) := by
  have hmark : ∀ {c : Char}, c = 'e' ∨ c = 'E' → c.isDigit = false := by
    rintro c (rfl | rfl) <;> decide
  cases h with
  | none => exact hrest
  | bare he => exact noDigit_cons (hmark he) _
  | plus he => exact noDigit_cons (hmark he) _
  | minus he => exact noDigit_cons (hmark he) _

theorem SpellsExponent.noFraction_append {x : List Char} {e : Int} (h : SpellsExponent x e)
    (hrest : NoFraction rest) : NoFraction (x ++ rest) := by
  have hmark : ∀ {c : Char} {cs : List Char}, c = 'e' ∨ c = 'E' → NoFraction (c :: cs) := by
    rintro c cs hc d more heq
    have hpoint : ¬ ('.' = 'e' ∨ '.' = 'E') := by decide
    rw [(List.cons.inj heq).1] at hc
    exact absurd hc hpoint
  cases h with
  | none => exact hrest
  | bare he => exact hmark he
  | plus he => exact hmark he
  | minus he => exact hmark he

/-- **Parts in front of a text** that the number does not go on with are its parts there. -/
theorem splits_append {f x : List Char} {places : Nat} {e : Int} (hds : IsWhole ds)
    (hf : SpellsFraction f n places) (hx : SpellsExponent x e) (hrest : ¬ Continues rest) :
    Splits (ds ++ (f ++ (x ++ rest))) ds f x rest n places e where
  eq := rfl
  whole := hds
  fraction := hf
  exponent := hx
  afterWhole :=
    Or.inr (hf.noDigit_append (hx.noDigit_append (noDigit_of_not_continues hrest)))
  afterPoint _ := hx.noDigit_append (noDigit_of_not_continues hrest)
  withoutPoint _ := hx.noFraction_append (noFraction_of_not_continues hrest)
  afterExponent _ := noDigit_of_not_continues hrest
  withoutExponent _ := noExponent_of_not_continues hrest

/-! ## 3. Numbers -/

theorem readNumber_def (negative : Bool) (cs : List Char) : readNumber negative cs =
    let (whole, count, rest) := readWhole cs
    if count == 0 then .error .malformed
    else
      let (fraction, places, afterFraction) := readFraction rest
      let (exponent, after, isFloat) := match readExponent afterFraction with
        | some (e, after) => (e, after, true)
        | none => (0, afterFraction, places != 0)
      if isFloat then
        let x := Decimal.toFloat (whole * Nat.pow 10 places + fraction) (exponent - places)
        .ok (.float (if negative then -x else x), after)
      else if digitLimit < count then .error (.tooLong count)
      else .ok (.int (if negative then -(whole : Int) else whole), after) :=
  rfl

/-- **A number is read by its parts.** -/
theorem Splits.readNumber {f x : List Char} {places : Nat} {e : Int}
    (h : Splits cs ds f x rest n places e) (negative : Bool) :
    readNumber negative cs
      = (numberOf negative ds n places e (f ++ x != [])).map fun v => (v, rest) := by
  obtain ⟨rfl, hds, hf, hx, hwhole, hpoint, hnoPoint, hexponent, hnoExponent⟩ := h
  have hreadWhole := readWhole_append hds hwhole
  have hcount : (ds.length == 0) = false :=
    beq_eq_false_iff_ne.2 (mt List.length_eq_zero_iff.1 hds.1.1)
  have hreadFraction : readFraction (f ++ (x ++ rest)) = (n, places, x ++ rest) := by
    cases hf with
    | none => exact readFraction_of_noFraction (hnoPoint rfl)
    | some hdigits => exact readFraction_append hdigits (hpoint (List.cons_ne_nil _ _))
  have hplaces : (places != 0) = (f != []) := by
    cases hf with
    | none => rfl
    | some hdigits =>
      rw [bne_iff_ne.2 (mt List.length_eq_zero_iff.1 hdigits.1)]
      rfl
  rw [readNumber_def, hreadWhole]
  simp only [hcount, Bool.false_eq_true, if_false, hreadFraction]
  -- Without an exponent the fraction alone tells a float from a whole number.
  by_cases hxne : x = []
  · have hzero : e = 0 := by
      subst hxne
      cases hx
      rfl
    rw [hxne, List.nil_append, readExponent_of_noExponent (hnoExponent hxne), hzero]
    simp only [hplaces, List.append_nil, numberOf]
    split
    · rfl
    · split <;> rfl
  · have hfloat : (f ++ x != []) = true := by simp [hxne]
    rw [readExponent_append hx hxne (hexponent hxne), hfloat]
    rfl

theorem readNumber_of_noDigit (h : NoDigit cs) (negative : Bool) :
    readNumber negative cs = .error .malformed := by
  have hwhole : readWhole cs = (0, 0, cs) := by
    unfold readWhole
    split
    · exact absurd (h _ _ rfl) (by decide)
    · exact readDigits_nil h
  rw [readNumber_def, hwhole]
  rfl

/-- **What is read as a number is spelt.** -/
theorem spellsNumber_of_readNumber {negative : Bool}
    (h : readNumber negative cs = .ok (v, rest)) :
    ∃ seg, cs = seg ++ rest ∧ SpellsNumber negative seg v := by
  rcases exists_splits cs with hcs | ⟨ds, f, x, more, n, places, e, hsplit⟩
  · rw [readNumber_of_noDigit hcs] at h
    cases h
  · rw [hsplit.readNumber, numberOf] at h
    have hcs : cs = ds ++ (f ++ x) ++ more := by
      rw [hsplit.eq, List.append_assoc, List.append_assoc]
    split at h
    · rename_i hfloat
      cases h
      exact ⟨_, hcs, .float hsplit.whole hsplit.fraction hsplit.exponent (bne_iff_ne.1 hfloat)⟩
    · rename_i hfloat
      have hnil : f ++ x = [] := by simpa using hfloat
      split at h
      · cases h
      · rename_i hlimit
        cases h
        rw [hnil, List.append_nil] at hcs
        exact ⟨ds, hcs, .int hsplit.whole (Nat.not_lt.1 hlimit)⟩

/-- **What is spelt as a number is read**, unless the text goes on with it. -/
theorem readNumber_append {negative : Bool} {seg : List Char} (h : SpellsNumber negative seg v)
    (hrest : ¬ Continues rest) : readNumber negative (seg ++ rest) = .ok (v, rest) := by
  cases h with
  | @int ds hds hlimit =>
    have hsplit := splits_append hds .none .none hrest
    rw [List.nil_append, List.nil_append] at hsplit
    rw [hsplit.readNumber, numberOf, if_neg (by decide), if_neg (Nat.not_lt.2 hlimit)]
    rfl
  | float hds hf hx hne =>
    have hsplit := splits_append hds hf hx hrest
    rw [List.append_assoc, List.append_assoc, hsplit.readNumber, numberOf,
      if_pos (bne_iff_ne.2 hne)]
    rfl

/-- **A number fails at its limit**, if nothing makes it a float. -/
theorem readNumber_of_limit (hds : IsWhole ds) (hlimit : digitLimit < ds.length)
    (hrest : ¬ Continues rest) (negative : Bool) :
    readNumber negative (ds ++ rest) = .error (.tooLong ds.length) := by
  have hsplit := splits_append hds .none .none hrest
  rw [List.nil_append, List.nil_append] at hsplit
  rw [hsplit.readNumber, numberOf, if_neg (by decide), if_pos hlimit]
  rfl

theorem exists_of_readNumber_error {negative : Bool} (h : readNumber negative cs = .error fault)
    (hfault : fault ≠ .malformed) : ∃ ds rest, cs = ds ++ rest ∧ IsWhole ds ∧
      digitLimit < ds.length ∧ ¬ Continues rest ∧ fault = .tooLong ds.length := by
  rcases exists_splits cs with hcs | ⟨ds, f, x, rest, n, places, e, hsplit⟩
  · rw [readNumber_of_noDigit hcs] at h
    cases h
    exact absurd rfl hfault
  · rw [hsplit.readNumber, numberOf] at h
    split at h
    · cases h
    · rename_i hfloat
      obtain ⟨rfl, rfl⟩ := List.append_eq_nil_iff.1 (by simpa using hfloat : f ++ x = [])
      split at h
      · rename_i hlimit
        cases h
        refine ⟨ds, rest, hsplit.eq, hsplit.whole, hlimit, ?_, rfl⟩
        -- A lone zero may be followed by anything, but it is within the limit.
        have hone : ds ≠ ['0'] := by
          rintro rfl
          exact absurd hlimit (by decide)
        exact not_continues (hsplit.afterWhole.resolve_left hone) (hsplit.withoutPoint rfl)
          (hsplit.withoutExponent rfl)
      · cases h

end CodeAtlas.Json
