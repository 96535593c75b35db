import CodeAtlas.Proofs.Json.Nesting

/-!
# Reading whole texts

What is read is spelt, whatever the fuel, and a failure at a limit is one that the text meets
(`valuesSpelt`, `valuesMeet`): both follow the reader through one unit of fuel. With the converse,
the grammar alone says what becomes of a text. It stands for one value, or it meets a limit, or it
is malformed (`ofText_eq_ok_iff`, `meetsLimit_iff`).
-/

namespace CodeAtlas.Json

variable {cs : List Char} {room fuel : Nat} {v : Json} {fault : Fault}

/-! ## 1. What is read is spelt -/

/-- What a value reader gives with some fuel is spelt in front of the text. -/
def ValuesSpelt (fuel : Nat) : Prop :=
  ∀ room cs v rest, readValue fuel room cs = .ok (v, rest) →
    ∃ seg, cs = seg ++ rest ∧ Spells room seg v

/-- So are the items up to the closing bracket, -/
def ItemsSpelt (fuel : Nat) : Prop :=
  ∀ room taken cs v rest, readItems fuel room taken (skipBlanks cs) = .ok (v, rest) →
    ∃ (lead : List (Padded Json)) (last : Padded Json),
      (∀ p ∈ lead, Spells room p.text p.value) ∧ Spells room last.text last.value ∧
      cs = listed (lead.map (·.chars)) ++ (last.chars ++ ']' :: rest) ∧
      v = .arr (taken.reverse ++ (lead ++ [last]).map (·.value))

/-- and the members up to the closing brace. -/
def MembersSpelt (fuel : Nat) : Prop :=
  ∀ room taken cs v rest, readMembers fuel room taken (skipBlanks cs) = .ok (v, rest) →
    ∃ (lead : List Member) (last : Member),
      (∀ m ∈ lead, SpellsString m.key.text m.key.value) ∧
      (∀ m ∈ lead, Spells room m.value.text m.value.value) ∧
      SpellsString last.key.text last.key.value ∧ Spells room last.value.text last.value.value ∧
      cs = listed (lead.map (·.chars)) ++ (last.chars ++ '\x7d' :: rest) ∧
      v = .obj (collect taken (lead ++ [last]))

/-- Blanks and a mark behind a value. -/
theorem exists_blanks (h : skipBlanks cs = rest) : ∃ bs, IsBlank bs ∧ cs = bs ++ rest := by
  obtain ⟨bs, hbs, heq⟩ := exists_isBlank cs
  exact ⟨bs, hbs, h ▸ heq⟩

/-- A string in front of a text, as a piece. -/
theorem exists_key {before more after : List Char} {key : String} (hbefore : IsBlank before)
    (htext : stringText? cs = some (key, more)) (hmore : skipBlanks more = after) :
    ∃ piece : Padded String, SpellsString piece.text piece.value ∧ piece.value = key ∧
      before ++ '"' :: cs = piece.chars ++ after := by
  obtain ⟨body, rfl, hbody⟩ := spellsText_of_stringText? htext
  obtain ⟨bs, hbs, rfl⟩ := exists_blanks hmore
  refine ⟨⟨before, '"' :: body ++ ['"'], bs, key, hbefore, hbs⟩, ⟨body, rfl, hbody⟩, rfl, ?_⟩
  simp [Padded.chars]

/-- A value in front of a text, as a piece. -/
theorem exists_value {after rest : List Char} (hv : ValuesSpelt fuel)
    (h : readValue fuel room (skipBlanks cs) = .ok (v, rest)) (hrest : skipBlanks rest = after) :
    ∃ piece : Padded Json, Spells room piece.text piece.value ∧ piece.value = v ∧
      cs = piece.chars ++ after := by
  obtain ⟨before, hbefore, hcs⟩ := exists_isBlank cs
  obtain ⟨seg, hseg, hspells⟩ := hv _ _ _ _ h
  obtain ⟨bs, hbs, rfl⟩ := exists_blanks hrest
  refine ⟨⟨before, seg, bs, v, hbefore, hbs⟩, hspells, rfl, ?_⟩
  rw [hcs, hseg]
  simp [Padded.chars]

/-- **What the reader of members does with a text.** It takes a key up to its colon and the value
behind it. Then the brace closes, or members follow. -/
inductive MemberStep (fuel room : Nat) (taken : List (String × Json)) (cs : List Char) :
    Except Fault (Json × List Char) → Prop
  | malformed : MemberStep fuel room taken cs (.error .malformed)
  | fails {key : Padded String} {after : List Char} {fault : Fault} :
      SpellsString key.text key.value → cs = key.chars ++ ':' :: after →
      readValue fuel room (skipBlanks after) = .error fault →
      MemberStep fuel room taken cs (.error fault)
  | last {key : Padded String} {after rest more : List Char} {value : Json} :
      SpellsString key.text key.value → cs = key.chars ++ ':' :: after →
      readValue fuel room (skipBlanks after) = .ok (value, rest) → skipBlanks rest = '\x7d' :: more →
      MemberStep fuel room taken cs (.ok (.obj (insertMember key.value value taken), more))
  | next {key : Padded String} {after rest more : List Char} {value : Json} :
      SpellsString key.text key.value → cs = key.chars ++ ':' :: after →
      readValue fuel room (skipBlanks after) = .ok (value, rest) → skipBlanks rest = ',' :: more →
      MemberStep fuel room taken cs
        (readMembers fuel room (insertMember key.value value taken) (skipBlanks more))

theorem memberStep (fuel room : Nat) (taken : List (String × Json)) (cs : List Char) :
    MemberStep fuel room taken cs (readMembers (fuel + 1) room taken (skipBlanks cs)) := by
  obtain ⟨before, hbefore, hcs⟩ := exists_isBlank cs
  rw [readMembers_succ]
  split
  · rename_i body hmark
    rw [hmark] at hcs
    split
    · exact .malformed
    · rename_i key more htext
      split
      · rename_i afterColon hcolon
        obtain ⟨key, hkey, rfl, heq⟩ := exists_key hbefore htext hcolon
        have hcs : cs = key.chars ++ ':' :: afterColon := hcs.trans heq
        split
        · rename_i e hvalue
          exact .fails hkey hcs hvalue
        · rename_i value afterValue hvalue
          dsimp only
          split
          · rename_i after hclose
            exact .last hkey hcs hvalue hclose
          · rename_i after hcomma
            exact .next hkey hcs hvalue hcomma
          · exact .malformed
      · exact .malformed
  · exact .malformed

theorem itemsSpelt_succ (hv : ValuesSpelt fuel) (hi : ItemsSpelt fuel) : ItemsSpelt (fuel + 1) := by
  intro room taken cs v rest h
  rw [readItems_succ] at h
  split at h
  · cases h
  · rename_i item more hitem
    split at h
    · rename_i after hclose
      cases h
      obtain ⟨last, hlast, rfl, rfl⟩ := exists_value hv hitem hclose
      refine ⟨[], last, fun _ hp => absurd hp List.not_mem_nil, hlast, rfl, ?_⟩
      rw [List.reverse_cons]
      rfl
    · rename_i after hcomma
      obtain ⟨first, hfirst, rfl, rfl⟩ := exists_value hv hitem hcomma
      obtain ⟨lead, last, hlead, hlast, rfl, rfl⟩ := hi _ _ _ _ _ h
      refine ⟨first :: lead, last, List.forall_mem_cons.2 ⟨hfirst, hlead⟩, hlast, ?_, ?_⟩
      · rw [List.map_cons, listed_cons]
      · rw [List.reverse_cons, List.append_assoc]
        rfl
    · cases h

theorem membersSpelt_succ (hv : ValuesSpelt fuel) (hm : MembersSpelt fuel) :
    MembersSpelt (fuel + 1) := by
  intro room taken cs v rest h
  have hstep := memberStep fuel room taken cs
  generalize readMembers (fuel + 1) room taken (skipBlanks cs) = result at h hstep
  cases hstep with
  | malformed | fails => cases h
  | @last key _ _ _ _ hkey hcs hvalue hclose =>
    cases h
    obtain ⟨value, hspells, rfl, rfl⟩ := exists_value hv hvalue hclose
    refine ⟨[], ⟨key, value⟩, fun _ hm => absurd hm List.not_mem_nil,
      fun _ hm => absurd hm List.not_mem_nil, hkey, hspells, ?_, rfl⟩
    rw [hcs, Member.chars_append]
    rfl
  | @next key _ _ _ _ hkey hcs hvalue hcomma =>
    obtain ⟨value, hspells, rfl, rfl⟩ := exists_value hv hvalue hcomma
    obtain ⟨lead, last, hkeys, hvalues, hlastKey, hlast, rfl, rfl⟩ := hm _ _ _ _ _ h
    refine ⟨⟨key, value⟩ :: lead, last, List.forall_mem_cons.2 ⟨hkey, hkeys⟩,
      List.forall_mem_cons.2 ⟨hspells, hvalues⟩, hlastKey, hlast, ?_, rfl⟩
    rw [hcs, List.map_cons, listed_cons, Member.chars_append ⟨key, value⟩]

theorem valuesSpelt_succ (hi : ItemsSpelt fuel) (hm : MembersSpelt fuel) :
    ValuesSpelt (fuel + 1) := by
  intro room cs v rest h
  rw [readValue_succ] at h
  split at h
  · cases h
  · cases h
  · rename_i cs room
    split at h
    · rename_i after hclose
      cases h
      obtain ⟨bs, hbs, rfl⟩ := exists_blanks hclose
      exact ⟨'[' :: (bs ++ [']']), by simp, .emptyArray hbs⟩
    · obtain ⟨lead, last, hlead, hlast, rfl, rfl⟩ := hi _ _ _ _ _ h
      exact ⟨_, by simp, .array hlead hlast⟩
  · rename_i cs room
    split at h
    · rename_i after hclose
      cases h
      obtain ⟨bs, hbs, rfl⟩ := exists_blanks hclose
      exact ⟨'\x7b' :: (bs ++ ['\x7d']), by simp, .emptyObject hbs⟩
    · obtain ⟨lead, last, hkeys, hvalues, hkey, hvalue, rfl, rfl⟩ := hm _ _ _ _ _ h
      exact ⟨_, by simp, .object hkeys hvalues hkey hvalue⟩
  · obtain ⟨seg, rfl, hseg⟩ := spellsAtom_of_readAtom h
    exact ⟨seg, rfl, .atom hseg⟩

/-- **What is read is spelt**, whatever the fuel. -/
theorem valuesSpelt (fuel : Nat) : ValuesSpelt fuel := by
  have hall : ValuesSpelt fuel ∧ ItemsSpelt fuel ∧ MembersSpelt fuel := by
    induction fuel with
    | zero =>
      refine ⟨fun room cs v rest h => ?_, fun room taken cs v rest h => ?_,
        fun room taken cs v rest h => ?_⟩
      · rw [readValue] at h
        cases h
      · rw [readItems] at h
        cases h
      · rw [readMembers] at h
        cases h
    | succ fuel ih =>
      exact ⟨valuesSpelt_succ ih.2.1 ih.2.2, itemsSpelt_succ ih.1 ih.2.1,
        membersSpelt_succ ih.1 ih.2.2⟩
  exact hall.1

/-! ## 2. A failure at a limit is met -/

/-- A failure of a value reader with some fuel, other than for the grammar, is a limit that is
met. -/
def ValuesMeet (fuel : Nat) : Prop :=
  ∀ room cs fault, readValue fuel room cs = .error fault → fault ≠ .malformed → Meets room cs fault

/-- In an array the limit is met behind some items, -/
def ItemsMeet (fuel : Nat) : Prop :=
  ∀ room taken cs fault, readItems fuel room taken (skipBlanks cs) = .error fault →
    fault ≠ .malformed → ∃ (lead : List (Padded Json)) (bs rest : List Char),
      (∀ p ∈ lead, Spells room p.text p.value) ∧ IsBlank bs ∧ Meets room rest fault ∧
      cs = listed (lead.map (·.chars)) ++ (bs ++ rest)

/-- and in an object behind some members and a key. -/
def MembersMeet (fuel : Nat) : Prop :=
  ∀ room taken cs fault, readMembers fuel room taken (skipBlanks cs) = .error fault →
    fault ≠ .malformed → ∃ (lead : List Member) (key : Padded String) (bs rest : List Char),
      (∀ m ∈ lead, SpellsString m.key.text m.key.value) ∧
      (∀ m ∈ lead, Spells room m.value.text m.value.value) ∧ SpellsString key.text key.value ∧
      IsBlank bs ∧ Meets room rest fault ∧
      cs = listed (lead.map (·.chars)) ++ (key.chars ++ ':' :: (bs ++ rest))

theorem itemsMeet_succ (hv : ValuesMeet fuel) (hi : ItemsMeet fuel) : ItemsMeet (fuel + 1) := by
  intro room taken cs fault h hfault
  rw [readItems_succ] at h
  split at h
  · rename_i e hitem
    cases h
    obtain ⟨bs, hbs, hcs⟩ := exists_isBlank cs
    exact ⟨[], bs, _, fun _ hp => absurd hp List.not_mem_nil, hbs, hv _ _ _ hitem hfault, hcs⟩
  · rename_i item more hitem
    split at h
    · cases h
    · rename_i after hcomma
      obtain ⟨first, hfirst, -, rfl⟩ := exists_value (valuesSpelt fuel) hitem hcomma
      obtain ⟨lead, bs, rest, hlead, hbs, hmeets, rfl⟩ := hi _ _ _ _ h hfault
      refine ⟨first :: lead, bs, rest, List.forall_mem_cons.2 ⟨hfirst, hlead⟩, hbs, hmeets, ?_⟩
      rw [List.map_cons, listed_cons]
    · cases h
      exact absurd rfl hfault

theorem membersMeet_succ (hv : ValuesMeet fuel) (hm : MembersMeet fuel) :
    MembersMeet (fuel + 1) := by
  intro room taken cs fault h hfault
  have hstep := memberStep fuel room taken cs
  generalize readMembers (fuel + 1) room taken (skipBlanks cs) = result at h hstep
  cases hstep with
  | malformed =>
    cases h
    exact absurd rfl hfault
  | last => cases h
  -- The failure comes from this member's value, or it comes from the members behind it.
  | @fails key after _ hkey hcs hvalue =>
    cases h
    obtain ⟨bs, hbs, hafter⟩ := exists_isBlank after
    refine ⟨[], key, bs, _, fun _ hm => absurd hm List.not_mem_nil,
      fun _ hm => absurd hm List.not_mem_nil, hkey, hbs, hv _ _ _ hvalue hfault, ?_⟩
    rw [← hafter, hcs]
    rfl
  | @next key _ _ _ _ hkey hcs hvalue hcomma =>
    obtain ⟨value, hspells, rfl, rfl⟩ := exists_value (valuesSpelt fuel) hvalue hcomma
    obtain ⟨lead, next, bs, rest, hkeys, hvalues, hnext, hbs, hmeets, rfl⟩ := hm _ _ _ _ h hfault
    refine ⟨⟨key, value⟩ :: lead, next, bs, rest, List.forall_mem_cons.2 ⟨hkey, hkeys⟩,
      List.forall_mem_cons.2 ⟨hspells, hvalues⟩, hnext, hbs, hmeets, ?_⟩
    rw [hcs, List.map_cons, listed_cons, Member.chars_append ⟨key, value⟩]

theorem valuesMeet_succ (hi : ItemsMeet fuel) (hm : MembersMeet fuel) : ValuesMeet (fuel + 1) := by
  intro room cs fault h hfault
  rw [readValue_succ] at h
  split at h
  · cases h
    exact .array
  · cases h
    exact .object
  · split at h
    · cases h
    · obtain ⟨lead, bs, rest, hlead, hbs, hmeets, rfl⟩ := hi _ _ _ _ h hfault
      exact .item hlead hbs hmeets
  · split at h
    · cases h
    · obtain ⟨lead, key, bs, rest, hkeys, hvalues, hkey, hbs, hmeets, rfl⟩ := hm _ _ _ _ h hfault
      exact .member hkeys hvalues hkey hbs hmeets
  · exact meets_of_readAtom h hfault

/-- **A failure at a limit is met**, whatever the fuel. -/
theorem valuesMeet (fuel : Nat) : ValuesMeet fuel := by
  have hall : ValuesMeet fuel ∧ ItemsMeet fuel ∧ MembersMeet fuel := by
    induction fuel with
    | zero =>
      refine ⟨fun room cs fault h hfault => ?_, fun room taken cs fault h hfault => ?_,
        fun room taken cs fault h hfault => ?_⟩
      · rw [readValue] at h
        cases h
        exact absurd rfl hfault
      · rw [readItems] at h
        cases h
        exact absurd rfl hfault
      · rw [readMembers] at h
        cases h
        exact absurd rfl hfault
    | succ fuel ih =>
      exact ⟨valuesMeet_succ ih.2.1 ih.2.2, itemsMeet_succ ih.1 ih.2.1,
        membersMeet_succ ih.1 ih.2.2⟩
  exact hall.1

/-! ## 3. Whole texts -/

/-- **A text is read for a value exactly if it stands for that value.** -/
theorem ofText_eq_ok_iff {text : String} : ofText text room = .ok v ↔ IsDocument room text v := by
  constructor
  · intro h
    obtain ⟨before, hbefore, htext⟩ := exists_isBlank text.toList
    unfold ofText at h
    dsimp only at h
    split at h
    · cases h
    · rename_i value rest hvalue
      split at h
      · rename_i hempty
        cases h
        obtain ⟨seg, hseg, hspells⟩ := valuesSpelt _ _ _ _ _ hvalue
        obtain ⟨bs, hbs, rfl⟩ := exists_blanks (List.isEmpty_iff.1 hempty)
        rw [List.append_nil] at hseg
        refine ⟨⟨before, seg, bs, v, hbefore, hbs⟩, ?_, rfl, hspells⟩
        rw [htext, hseg, Padded.chars, List.append_assoc]
      · cases h
  · rintro ⟨piece, htext, rfl, hspells⟩
    have hskip : skipBlanks text.toList = piece.text ++ piece.after := by
      rw [htext, ← List.append_nil piece.chars, skipBlanks_piece hspells.head, List.append_nil]
    have hfuel : 2 * (piece.text ++ piece.after).length ≤ 2 * text.toList.length + 2 := by
      rw [htext, Padded.chars]
      simp only [List.length_append]
      omega
    have hread := hspells.reads _ _ (ends_of_isBlank piece.isBlank_after) hfuel
    simp only [ofText, hskip, hread, skipBlanks_of_isBlank piece.isBlank_after]
    rfl

/-- Of members with one key the last counts. -/
example : IsDocument 990 "\x7b\"a\": 1, \"a\": [true]\x7d" (.obj [("a", .arr [.bool true])]) :=
  ofText_eq_ok_iff.1 (by cbv)

/-- A fault of the grammar is no limit. -/
theorem Meets.ne_malformed (h : Meets room cs fault) : fault ≠ .malformed := by
  induction h with
  | item _ _ _ ih => exact ih
  | member _ _ _ _ _ ih => exact ih
  | _ => nofun

/-- **Reading fails at a limit exactly if the text meets it.** -/
theorem meetsLimit_iff {text : String} :
    MeetsLimit room text fault ↔ ofText text room = .error fault ∧ fault ≠ .malformed := by
  constructor
  · rintro ⟨bs, cs, htext, hbs, hmeets⟩
    have hskip : skipBlanks text.toList = cs := by
      rw [htext, skipBlanks_headed hbs hmeets.head]
    have hfuel : 2 * cs.length ≤ 2 * text.toList.length + 2 := by
      rw [htext, List.length_append]
      omega
    refine ⟨?_, hmeets.ne_malformed⟩
    simp only [ofText, hskip, hmeets.readValue hfuel]
  · rintro ⟨h, hfault⟩
    obtain ⟨bs, hbs, htext⟩ := exists_isBlank text.toList
    unfold ofText at h
    dsimp only at h
    split at h
    · rename_i e hvalue
      cases h
      exact ⟨bs, _, htext, hbs, valuesMeet _ _ _ _ hvalue hfault⟩
    · split at h
      · cases h
      · cases h
        exact absurd rfl hfault

end CodeAtlas.Json
