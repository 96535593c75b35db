import CodeAtlas.Proofs.Json.Atom

/-!
# What is spelt is read

A value is read in front of everything that can follow it, with fuel for two units a character
(`Spells.reads`). The induction is on how the text is put together: what stands in an array or an
object is read piece by piece (`readItems_listed`, `readMembers_listed`), and one level more costs
one character. A limit is met in the same way, behind pieces that are read (`Meets.readValue`).
-/

namespace CodeAtlas.Json

variable {cs rest seg : List Char} {c : Char} {room fuel : Nat} {v : Json} {fault : Fault}

/-! ## 1. One level -/

theorem readValue_succ (fuel room : Nat) (cs : List Char) :
    readValue (fuel + 1) room cs =
      match cs, room with
      | '[' :: _, 0 => .error (.tooDeep true)
      | '\x7b' :: _, 0 => .error (.tooDeep false)
      | '[' :: rest, room + 1 =>
        match skipBlanks rest with
        | ']' :: rest => .ok (.arr [], rest)
        | rest => readItems fuel room [] rest
      | '\x7b' :: rest, room + 1 =>
        match skipBlanks rest with
        | '\x7d' :: rest => .ok (.obj [], rest)
        | rest => readMembers fuel room [] rest
      | _, _ => readAtom cs := rfl

theorem readItems_succ (fuel room : Nat) (taken : List Json) (cs : List Char) :
    readItems (fuel + 1) room taken cs =
      match readValue fuel room cs with
      | .error e => .error e
      | .ok (item, rest) =>
        match skipBlanks rest with
        | ']' :: rest => .ok (.arr (item :: taken).reverse, rest)
        | ',' :: rest => readItems fuel room (item :: taken) (skipBlanks rest)
        | _ => .error .malformed := rfl

theorem readMembers_succ (fuel room : Nat) (taken : List (String × Json)) (cs : List Char) :
    readMembers (fuel + 1) room taken cs =
      match cs with
      | '"' :: rest =>
        match stringText? rest with
        | none => .error .malformed
        | some (key, rest) =>
          match skipBlanks rest with
          | ':' :: rest =>
            match readValue fuel room (skipBlanks rest) with
            | .error e => .error e
            | .ok (value, rest) =>
              let taken := insertMember key value taken
              match skipBlanks rest with
              | '\x7d' :: rest => .ok (.obj taken, rest)
              | ',' :: rest => readMembers fuel room taken (skipBlanks rest)
              | _ => .error .malformed
          | _ => .error .malformed
      | _ => .error .malformed := rfl

theorem readValue_atom (hc : c ≠ '[' ∧ c ≠ '\x7b') (cs : List Char) :
    readValue (fuel + 1) room (c :: cs) = readAtom (c :: cs) := by
  rw [readValue_succ]
  split
  · rename_i heq
    exact absurd (List.cons.inj heq).1 hc.1
  · rename_i heq
    exact absurd (List.cons.inj heq).1 hc.2
  · rename_i heq
    exact absurd (List.cons.inj heq).1 hc.1
  · rename_i heq
    exact absurd (List.cons.inj heq).1 hc.2
  · rfl

theorem readValue_emptyArray (h : skipBlanks cs = ']' :: rest) :
    readValue (fuel + 1) (room + 1) ('[' :: cs) = .ok (.arr [], rest) := by
  simp only [readValue_succ, h]

theorem readValue_array (h : skipBlanks cs = c :: rest) (hc : c ≠ ']') :
    readValue (fuel + 1) (room + 1) ('[' :: cs) = readItems fuel room [] (c :: rest) := by
  rw [readValue_succ]
  simp only [h]
  split
  · rename_i heq
    exact absurd (List.cons.inj heq).1 hc
  · rfl

theorem readValue_emptyObject (h : skipBlanks cs = '\x7d' :: rest) :
    readValue (fuel + 1) (room + 1) ('\x7b' :: cs) = .ok (.obj [], rest) := by
  simp only [readValue_succ, h]

theorem readValue_object (h : skipBlanks cs = c :: rest) (hc : c ≠ '\x7d') :
    readValue (fuel + 1) (room + 1) ('\x7b' :: cs) = readMembers fuel room [] (c :: rest) := by
  rw [readValue_succ]
  simp only [h]
  split
  · rename_i heq
    exact absurd (List.cons.inj heq).1 hc
  · rfl

theorem readItems_next {taken : List Json} {item : Json} {more : List Char}
    (h : readValue fuel room cs = .ok (item, rest)) (hrest : skipBlanks rest = ',' :: more) :
    readItems (fuel + 1) room taken cs = readItems fuel room (item :: taken) (skipBlanks more) := by
  simp only [readItems_succ, h, hrest]

theorem readItems_last {taken : List Json} {item : Json} {more : List Char}
    (h : readValue fuel room cs = .ok (item, rest)) (hrest : skipBlanks rest = ']' :: more) :
    readItems (fuel + 1) room taken cs = .ok (.arr (item :: taken).reverse, more) := by
  simp only [readItems_succ, h, hrest]

theorem readItems_error {taken : List Json} (h : readValue fuel room cs = .error fault) :
    readItems (fuel + 1) room taken cs = .error fault := by
  simp only [readItems_succ, h]

section Members

variable {taken : List (String × Json)} {key : Padded String} {value : Json} {more : List Char}

/-- The key of a member is read up to its colon. -/
theorem stringText?_key (h : SpellsString key.text key.value) (cs : List Char) :
    ∃ body, key.text ++ (key.after ++ ':' :: cs) = '"' :: body ∧
      ∃ rest, stringText? body = some (key.value, rest) ∧ skipBlanks rest = ':' :: cs := by
  obtain ⟨body, htext, hbody⟩ := h
  refine ⟨body ++ '"' :: (key.after ++ ':' :: cs), ?_, _, stringText?_append hbody _, ?_⟩
  · rw [htext]
    simp
  · exact skipBlanks_append_cons key.isBlank_after (by simp [IsBlank]) cs

theorem readMembers_next (hkey : SpellsString key.text key.value)
    (h : readValue fuel room (skipBlanks cs) = .ok (value, rest))
    (hrest : skipBlanks rest = ',' :: more) :
    readMembers (fuel + 1) room taken (key.text ++ (key.after ++ ':' :: cs))
      = readMembers fuel room (insertMember key.value value taken) (skipBlanks more) := by
  obtain ⟨body, hbody, after, htext, hcolon⟩ := stringText?_key hkey cs
  rw [hbody]
  simp only [readMembers_succ, htext, hcolon, h, hrest]

theorem readMembers_last (hkey : SpellsString key.text key.value)
    (h : readValue fuel room (skipBlanks cs) = .ok (value, rest))
    (hrest : skipBlanks rest = '\x7d' :: more) :
    readMembers (fuel + 1) room taken (key.text ++ (key.after ++ ':' :: cs))
      = .ok (.obj (insertMember key.value value taken), more) := by
  obtain ⟨body, hbody, after, htext, hcolon⟩ := stringText?_key hkey cs
  rw [hbody]
  simp only [readMembers_succ, htext, hcolon, h, hrest]

theorem readMembers_error (hkey : SpellsString key.text key.value)
    (h : readValue fuel room (skipBlanks cs) = .error fault) :
    readMembers (fuel + 1) room taken (key.text ++ (key.after ++ ':' :: cs)) = .error fault := by
  obtain ⟨body, hbody, after, htext, hcolon⟩ := stringText?_key hkey cs
  rw [hbody]
  simp only [readMembers_succ, htext, hcolon, h]

end Members

/-! ## 2. Values -/

theorem Spells.head (h : Spells room seg v) : IsHeaded seg := by
  cases h with
  | atom h =>
    obtain ⟨c, more, rfl, hc, -⟩ := h.head
    exact ⟨c, more, rfl, hc⟩
  | _ => exact ⟨_, _, rfl, by decide⟩

theorem Meets.head (h : Meets room cs fault) : IsHeaded cs := by
  cases h with
  | number hds =>
    obtain ⟨d, more, rfl, hd⟩ := hds.head
    exact ⟨d, _, rfl, isStart_of_isDigit hd⟩
  | _ => exact ⟨_, _, rfl, by decide⟩

theorem SpellsString.head {text : String} (h : SpellsString seg text) : IsHeaded seg := by
  obtain ⟨body, rfl, -⟩ := h
  exact ⟨'"', _, rfl, by decide⟩

/-- **A value is read** in front of every text that can follow it, with fuel for all of it. -/
def Reads (room : Nat) (seg : List Char) (v : Json) : Prop :=
  ∀ fuel rest, Ends rest → 2 * (seg ++ rest).length ≤ fuel →
    readValue fuel room (seg ++ rest) = .ok (v, rest)

theorem listed_cons (piece : List Char) (pieces : List (List Char)) (cs : List Char) :
    listed (piece :: pieces) ++ cs = piece ++ ',' :: (listed pieces ++ cs) := by
  simp [listed]

/-- What comes first behind an opening bracket, blanks aside. -/
def Starts (cs : List Char) : Prop :=
  IsHeaded (skipBlanks cs)

theorem skipBlanks_headed {bs : List Char} (hbs : IsBlank bs) (hcs : IsHeaded cs) :
    skipBlanks (bs ++ cs) = cs := by
  obtain ⟨c, more, rfl, hc⟩ := hcs
  exact skipBlanks_append_cons hbs hc.not_isBlank more

theorem starts_append {bs : List Char} (hbs : IsBlank bs) (hcs : IsHeaded cs) :
    Starts (bs ++ cs) := by
  rwa [Starts, skipBlanks_headed hbs hcs]

theorem IsHeaded.append (h : IsHeaded seg) (cs : List Char) : IsHeaded (seg ++ cs) := by
  obtain ⟨c, more, rfl, hc⟩ := h
  exact ⟨c, more ++ cs, rfl, hc⟩

theorem skipBlanks_piece {α : Type} {piece : Padded α} (h : IsHeaded piece.text) (cs : List Char) :
    skipBlanks (piece.chars ++ cs) = piece.text ++ (piece.after ++ cs) := by
  rw [Padded.chars, List.append_assoc, List.append_assoc,
    skipBlanks_headed piece.isBlank_before (h.append _)]

theorem starts_piece {α : Type} {piece : Padded α} (h : IsHeaded piece.text) (cs : List Char) :
    Starts (piece.chars ++ cs) := by
  rw [Starts, skipBlanks_piece h]
  exact h.append _

theorem Member.chars_append (member : Member) (cs : List Char) :
    member.chars ++ cs = member.key.chars ++ ':' :: (member.value.chars ++ cs) := by
  rw [Member.chars, List.append_assoc, List.cons_append]

theorem skipBlanks_member {member : Member} (h : SpellsString member.key.text member.key.value)
    (cs : List Char) : skipBlanks (member.chars ++ cs)
      = member.key.text ++ (member.key.after ++ ':' :: (member.value.chars ++ cs)) := by
  rw [member.chars_append, skipBlanks_piece h.head]

theorem starts_member {member : Member} (h : SpellsString member.key.text member.key.value)
    (cs : List Char) : Starts (member.chars ++ cs) := by
  rw [member.chars_append]
  exact starts_piece h.head _

/-- A value between its blanks is read up to what parts it from the next, or ends the list. -/
theorem Reads.piece {piece : Padded Json} (hreads : Reads room piece.text piece.value)
    (hhead : IsHeaded piece.text) (hc : c = ',' ∨ c = ']' ∨ c = '\x7d')
    (hfuel : 2 * (piece.chars ++ c :: cs).length ≤ fuel) :
    ∃ rest, readValue fuel room (skipBlanks (piece.chars ++ c :: cs)) = .ok (piece.value, rest) ∧
      skipBlanks rest = c :: cs := by
  -- The mark ends the value, so a number does not go on with it, and it is no blank.
  have hend : ¬ IsStart c ∧ ¬ IsBlank [c] := by
    rw [isBlank_singleton]
    rcases hc with rfl | rfl | rfl <;> decide
  rw [skipBlanks_piece hhead]
  refine ⟨_, hreads fuel _ (ends_append piece.isBlank_after (ends_cons hend.1 cs)) ?_, ?_⟩
  · rw [Padded.chars] at hfuel
    simp only [List.length_append] at hfuel ⊢
    omega
  · exact skipBlanks_append_cons piece.isBlank_after hend.2 cs

/-- **Items in front of others are read** one after the other. -/
theorem readItems_listed {lead : List (Padded Json)}
    (hlead : ∀ p ∈ lead, Spells room p.text p.value) (hreads : ∀ p ∈ lead, Reads room p.text p.value)
    (taken : List Json) (hfuel : 2 * (listed (lead.map (·.chars)) ++ cs).length < fuel) :
    ∃ fuel', 2 * cs.length < fuel' ∧
      readItems fuel room taken (skipBlanks (listed (lead.map (·.chars)) ++ cs))
        = readItems fuel' room ((lead.map (·.value)).reverse ++ taken) (skipBlanks cs) := by
  induction lead generalizing fuel taken with
  | nil => exact ⟨fuel, hfuel, rfl⟩
  | cons p lead ih =>
    rw [List.map_cons, listed_cons] at hfuel ⊢
    cases fuel with
    | zero => omega
    | succ fuel =>
      obtain ⟨rest, hread, hcomma⟩ := (hreads p List.mem_cons_self).piece
        (hlead p List.mem_cons_self).head (Or.inl rfl) (Nat.le_of_lt_succ hfuel)
      have hless : 2 * (listed (lead.map (·.chars)) ++ cs).length < fuel := by
        simp only [List.length_append, List.length_cons] at hfuel ⊢
        omega
      obtain ⟨fuel', hfuel', heq⟩ := ih (fun q hq => hlead q (List.mem_cons_of_mem p hq))
        (fun q hq => hreads q (List.mem_cons_of_mem p hq)) (p.value :: taken) hless
      -- one unit for the item leaves enough for the shorter rest
      refine ⟨fuel', hfuel', ?_⟩
      rw [readItems_next hread hcomma, heq, List.map_cons, List.reverse_cons, List.append_assoc,
        List.singleton_append]

/-- **Members in front of others are read** one after the other. -/
theorem readMembers_listed {lead : List Member}
    (hkeys : ∀ m ∈ lead, SpellsString m.key.text m.key.value)
    (hvalues : ∀ m ∈ lead, Spells room m.value.text m.value.value)
    (hreads : ∀ m ∈ lead, Reads room m.value.text m.value.value)
    (taken : List (String × Json)) (hfuel : 2 * (listed (lead.map (·.chars)) ++ cs).length < fuel) :
    ∃ fuel', 2 * cs.length < fuel' ∧
      readMembers fuel room taken (skipBlanks (listed (lead.map (·.chars)) ++ cs))
        = readMembers fuel' room (collect taken lead) (skipBlanks cs) := by
  induction lead generalizing fuel taken with
  | nil => exact ⟨fuel, hfuel, rfl⟩
  | cons m lead ih =>
    rw [List.map_cons, listed_cons, skipBlanks_member (hkeys m List.mem_cons_self)]
    rw [List.map_cons, listed_cons, Member.chars] at hfuel
    cases fuel with
    | zero => omega
    | succ fuel =>
      simp only [List.length_append, List.length_cons] at hfuel
      have hvalue : 2 * (m.value.chars ++ ',' :: (listed (lead.map (·.chars)) ++ cs)).length
          ≤ fuel := by
        simp only [List.length_append, List.length_cons]
        omega
      obtain ⟨rest, hread, hcomma⟩ := (hreads m List.mem_cons_self).piece
        (hvalues m List.mem_cons_self).head (Or.inl rfl) hvalue
      have hless : 2 * (listed (lead.map (·.chars)) ++ cs).length < fuel := by
        rw [List.length_append]
        omega
      obtain ⟨fuel', hfuel', heq⟩ := ih (fun q hq => hkeys q (List.mem_cons_of_mem m hq))
        (fun q hq => hvalues q (List.mem_cons_of_mem m hq))
        (fun q hq => hreads q (List.mem_cons_of_mem m hq))
        (insertMember m.key.value m.value.value taken) hless
      refine ⟨fuel', hfuel', ?_⟩
      rw [readMembers_next (hkeys m List.mem_cons_self) hread hcomma, heq]
      rfl

/-- Behind an opening bracket stands a piece, whichever comes first. -/
theorem starts_listed {pieces : List (List Char)}
    (h : ∀ piece ∈ pieces, ∀ cs, Starts (piece ++ cs)) (hcs : Starts cs) :
    Starts (listed pieces ++ cs) := by
  cases pieces with
  | nil => exact hcs
  | cons piece pieces =>
    rw [listed_cons]
    exact h piece List.mem_cons_self _

/-- An array is read up to the item behind some others. -/
theorem readValue_items {lead : List (Padded Json)}
    (hlead : ∀ p ∈ lead, Spells room p.text p.value) (hreads : ∀ p ∈ lead, Reads room p.text p.value)
    (hcs : Starts cs) (hfuel : 2 * ('[' :: (listed (lead.map (·.chars)) ++ cs)).length ≤ fuel) :
    ∃ fuel', 2 * cs.length ≤ fuel' ∧
      readValue fuel (room + 1) ('[' :: (listed (lead.map (·.chars)) ++ cs))
        = readItems (fuel' + 1) room (lead.map (·.value)).reverse (skipBlanks cs) := by
  have hpieces : ∀ piece ∈ lead.map (·.chars), ∀ cs, Starts (piece ++ cs) :=
    List.forall_mem_map.2 fun p hp => starts_piece (hlead p hp).head
  obtain ⟨c, more, hstarts, hc⟩ := starts_listed hpieces hcs
  rw [List.length_cons] at hfuel
  cases fuel with
  | zero => omega
  | succ fuel =>
    have hless : 2 * (listed (lead.map (·.chars)) ++ cs).length < fuel := by omega
    obtain ⟨fuel', hfuel', heq⟩ := readItems_listed hlead hreads [] hless
    cases fuel' with
    | zero => cases hfuel'
    | succ fuel' =>
      refine ⟨fuel', Nat.le_of_lt_succ hfuel', ?_⟩
      rw [readValue_array hstarts hc.2.2.1, ← hstarts, heq, List.append_nil]

/-- An object is read up to the member behind some others. -/
theorem readValue_members {lead : List Member}
    (hkeys : ∀ m ∈ lead, SpellsString m.key.text m.key.value)
    (hvalues : ∀ m ∈ lead, Spells room m.value.text m.value.value)
    (hreads : ∀ m ∈ lead, Reads room m.value.text m.value.value) (hcs : Starts cs)
    (hfuel : 2 * ('\x7b' :: (listed (lead.map (·.chars)) ++ cs)).length ≤ fuel) :
    ∃ fuel', 2 * cs.length ≤ fuel' ∧
      readValue fuel (room + 1) ('\x7b' :: (listed (lead.map (·.chars)) ++ cs))
        = readMembers (fuel' + 1) room (collect [] lead) (skipBlanks cs) := by
  have hpieces : ∀ piece ∈ lead.map (·.chars), ∀ cs, Starts (piece ++ cs) :=
    List.forall_mem_map.2 fun m hm => starts_member (hkeys m hm)
  obtain ⟨c, more, hstarts, hc⟩ := starts_listed hpieces hcs
  rw [List.length_cons] at hfuel
  cases fuel with
  | zero => omega
  | succ fuel =>
    have hless : 2 * (listed (lead.map (·.chars)) ++ cs).length < fuel := by omega
    obtain ⟨fuel', hfuel', heq⟩ := readMembers_listed hkeys hvalues hreads [] hless
    cases fuel' with
    | zero => cases hfuel'
    | succ fuel' =>
      refine ⟨fuel', Nat.le_of_lt_succ hfuel', ?_⟩
      rw [readValue_object hstarts hc.2.2.2, ← hstarts, heq]

/-- **What is spelt as a value is read.** The induction is on how the text is put together; every
level takes two units of fuel for one character. -/
theorem Spells.reads (h : Spells room seg v) : Reads room seg v := by
  induction h with
  | atom h =>
    intro fuel rest hrest hfuel
    obtain ⟨c, more, rfl, -, hc⟩ := h.head
    cases fuel with
    | zero => simp at hfuel
    | succ fuel =>
      rw [List.cons_append, readValue_atom hc, ← List.cons_append, readAtom_append h hrest]
  | emptyArray hbs =>
    intro fuel rest _ hfuel
    cases fuel with
    | zero => simp at hfuel
    | succ fuel =>
      rw [List.cons_append, List.append_assoc, List.singleton_append, readValue_emptyArray]
      exact skipBlanks_append_cons hbs (by simp [IsBlank]) rest
  | @array room lead last hlead hlast ihlead ihlast =>
    intro fuel rest _ hfuel
    simp only [List.cons_append, List.append_assoc, List.nil_append] at hfuel ⊢
    obtain ⟨fuel', hfuel', heq⟩ := readValue_items hlead ihlead (starts_piece hlast.head _) hfuel
    obtain ⟨more, hread, hclose⟩ := ihlast.piece hlast.head (Or.inr (Or.inl rfl)) hfuel'
    rw [heq, readItems_last hread hclose]
    simp
  | emptyObject hbs =>
    intro fuel rest _ hfuel
    cases fuel with
    | zero => simp at hfuel
    | succ fuel =>
      rw [List.cons_append, List.append_assoc, List.singleton_append, readValue_emptyObject]
      exact skipBlanks_append_cons hbs (by simp [IsBlank]) rest
  | @object room lead last hkeys hvalues hkey hvalue ihvalues ihvalue =>
    intro fuel rest _ hfuel
    simp only [List.cons_append, List.append_assoc, List.nil_append] at hfuel ⊢
    rw [last.chars_append] at hfuel ⊢
    obtain ⟨fuel', hfuel', heq⟩ :=
      readValue_members hkeys hvalues ihvalues (starts_piece hkey.head _) hfuel
    have hless : 2 * (last.value.chars ++ '\x7d' :: rest).length ≤ fuel' := by
      simp only [List.length_append, List.length_cons] at hfuel' ⊢
      omega
    obtain ⟨more, hread, hclose⟩ := ihvalue.piece hvalue.head (Or.inr (Or.inr rfl)) hless
    rw [heq, skipBlanks_piece hkey.head, readMembers_last hkey hread hclose]
    simp [collect]

/-- **A limit that is met is told.** -/
theorem Meets.readValue (h : Meets room cs fault) :
    ∀ {fuel : Nat}, 2 * cs.length ≤ fuel → readValue fuel room cs = .error fault := by
  have hdigit : ∀ {ds : List Char}, IsWhole ds → ∀ rest,
      ∃ d more, ds ++ rest = d :: more ∧ d.isDigit = true := by
    intro ds hds rest
    obtain ⟨d, more, rfl, hd⟩ := hds.head
    exact ⟨d, _, rfl, hd⟩
  induction h with
  | array =>
    intro fuel hfuel
    cases fuel with
    | zero => simp at hfuel
    | succ fuel => rfl
  | object =>
    intro fuel hfuel
    cases fuel with
    | zero => simp at hfuel
    | succ fuel => rfl
  | @number room ds rest hds hlimit hrest =>
    intro fuel hfuel
    obtain ⟨d, more, heq, hd⟩ := hdigit hds rest
    cases fuel with
    | zero => simp [heq] at hfuel
    | succ fuel =>
      rw [heq, readValue_atom (ne_bracket_of_isDigit hd), readAtom_of_digit hd, ← heq,
        readNumber_of_limit hds hlimit hrest]
  | @negative room ds rest hds hlimit hrest =>
    intro fuel hfuel
    obtain ⟨d, more, heq, hd⟩ := hdigit hds rest
    cases fuel with
    | zero => simp at hfuel
    | succ fuel =>
      rw [heq, readValue_atom (by decide), readAtom_negative hd, ← heq,
        readNumber_of_limit hds hlimit hrest]
  | @item room lead bs cs fault hlead hbs h ih =>
    intro fuel hfuel
    obtain ⟨fuel', hfuel', heq⟩ := readValue_items hlead (fun p hp => (hlead p hp).reads)
      (starts_append hbs h.head) hfuel
    rw [heq, skipBlanks_headed hbs h.head, readItems_error]
    refine ih ?_
    rw [List.length_append] at hfuel'
    omega
  | @member room lead key bs cs fault hkeys hvalues hkey hbs h ih =>
    intro fuel hfuel
    obtain ⟨fuel', hfuel', heq⟩ := readValue_members hkeys hvalues
      (fun m hm => (hvalues m hm).reads) (starts_piece hkey.head _) hfuel
    rw [heq, skipBlanks_piece hkey.head, readMembers_error hkey]
    rw [skipBlanks_headed hbs h.head]
    refine ih ?_
    simp only [List.length_append, List.length_cons] at hfuel'
    omega

end CodeAtlas.Json
