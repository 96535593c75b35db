import CodeAtlas.Proofs.Table
import CodeAtlas.Traversal.Report
import Mathlib.Data.List.Induction
import Mathlib.Data.List.Nodup

/-!
# Keeping the first of equals

`firstByKey` goes through a list and drops every item whose key an earlier one has. What is left
are items of the list in their order, with every key of the list on exactly one of them; a list
whose keys differ is left as it is. `List.eraseDups` is the case in which an item is its own key.
-/

namespace CodeAtlas.Traversal

variable {α κ : Type} [BEq κ]

/-! ## One item at a time -/

/-- The first item stays, and the others with its key go. -/
theorem firstByKey_cons (key : α → κ) (a : α) (items : List α) :
    firstByKey key (a :: items)
      = a :: firstByKey key (items.filter fun b => key b != key a) := by
  rw [firstByKey, List.eraseDupsBy_cons, firstByKey]
  congr 2
  refine List.filter_congr fun b _ => ?_
  simp [bne]

/-- **Induction along the recursion**: an item, and the rest without the items of its key. -/
theorem firstByKey_induction {motive : List α → Prop} (key : α → κ) (nil : motive [])
    (cons : ∀ a items, motive (items.filter fun b => key b != key a) →
      motive (a :: items)) (items : List α) : motive items := by
  induction h : items.length using Nat.strongRecOn generalizing items with
  | _ n ih =>
    cases items with
    | nil => exact nil
    | cons a items =>
      refine cons a items (ih _ ?_ _ rfl)
      have := List.length_filter_le (fun b => key b != key a) items
      rw [← h, List.length_cons]
      omega

/-! ## What is left -/

theorem firstByKey_sublist (key : α → κ) (items : List α) : (firstByKey key items).Sublist items := by
  induction items using firstByKey_induction key with
  | nil => exact List.Sublist.refl _
  | cons a items ih =>
    rw [firstByKey_cons]
    exact (ih.trans List.filter_sublist).cons_cons a

theorem mem_of_mem_firstByKey {key : α → κ} {items : List α} {a : α}
    (h : a ∈ firstByKey key items) : a ∈ items :=
  (firstByKey_sublist key items).subset h

/-- **More items at the end leave the first ones as they are.** -/
theorem prefix_firstByKey (key : α → κ) {items more : List α} (h : items <+: more) :
    firstByKey key items <+: firstByKey key more := by
  induction items using firstByKey_induction key generalizing more with
  | nil => exact List.nil_prefix
  | cons a items ih =>
    obtain ⟨rest, rfl⟩ := h
    rw [List.cons_append, firstByKey_cons, firstByKey_cons, List.prefix_cons_inj]
    exact ih ((List.prefix_append items rest).filter _)

/-- Items can be looked up by a key of what they stand for. -/
theorem firstByKey_map {β : Type} (key : β → κ) (g : α → β) (items : List α) :
    firstByKey key (items.map g) = (firstByKey (fun a => key (g a)) items).map g := by
  induction items using firstByKey_induction fun a => key (g a) with
  | nil => rfl
  | cons a items ih =>
    rw [List.map_cons, firstByKey_cons, firstByKey_cons, List.map_cons, List.filter_map]
    exact congrArg _ ih

/-- Items can be left out before or after, if it depends on their keys which. -/
theorem filter_firstByKey (key : α → κ) {p : α → Bool}
    (hp : ∀ a b, (key a == key b) = true → p a = p b) (items : List α) :
    (firstByKey key items).filter p = firstByKey key (items.filter p) := by
  induction items using firstByKey_induction key with
  | nil => rfl
  | cons a items ih =>
    rw [firstByKey_cons, List.filter_cons, List.filter_cons, ih]
    by_cases ha : p a = true
    · rw [if_pos ha, if_pos ha, firstByKey_cons, List.filter_filter, List.filter_filter]
      refine congrArg (fun rest => a :: firstByKey key rest) (List.filter_congr fun b _ => ?_)
      exact Bool.and_comm _ _
    -- no item with the key of the first one is left
    · rw [if_neg ha, if_neg ha, List.filter_filter]
      refine congrArg (firstByKey key) (List.filter_congr fun b _ => ?_)
      by_cases hb : p b = true
      · have hkey : (key b != key a) = true := by
          rw [bne, Bool.not_eq_true', Bool.eq_false_iff]
          exact fun h => ha (hp b a h ▸ hb)
        rw [hb, hkey, Bool.and_self]
      · rw [Bool.eq_false_iff.2 hb, Bool.false_and]

variable [LawfulBEq κ]

/-- Every key keeps an item. -/
theorem exists_mem_firstByKey (key : α → κ) {items : List α} {a : α} (h : a ∈ items) :
    ∃ b ∈ firstByKey key items, key b = key a := by
  induction items using firstByKey_induction key with
  | nil => exact absurd h List.not_mem_nil
  | cons c items ih =>
    rw [firstByKey_cons]
    by_cases hkey : key a = key c
    · exact ⟨c, List.mem_cons_self, hkey.symm⟩
    · have hmem : a ∈ items.filter fun b => key b != key c := by
        rw [List.mem_filter]
        refine ⟨(List.mem_cons.1 h).resolve_left ?_, bne_iff_ne.2 hkey⟩
        rintro rfl
        exact hkey rfl
      obtain ⟨b, hb, hba⟩ := ih hmem
      exact ⟨b, List.mem_cons_of_mem c hb, hba⟩

/-- No key keeps two items. -/
theorem nodup_keys_firstByKey (key : α → κ) (items : List α) :
    ((firstByKey key items).map key).Nodup := by
  induction items using firstByKey_induction key with
  | nil => exact List.nodup_nil
  | cons a items ih =>
    rw [firstByKey_cons, List.map_cons, List.nodup_cons]
    refine ⟨fun h => ?_, ih⟩
    obtain ⟨b, hb, hba⟩ := List.mem_map.1 h
    exact bne_iff_ne.1 (List.mem_filter.1 (mem_of_mem_firstByKey hb)).2 hba

/-- **An item is left if no item before it has its key.** -/
theorem mem_firstByKey_iff {key : α → κ} {items : List α} {a : α} :
    a ∈ firstByKey key items ↔ items.find? (fun b => key b == key a) = some a := by
  induction items using firstByKey_induction key with
  | nil => exact ⟨fun h => absurd h List.not_mem_nil, fun h => by cases h⟩
  | cons c items ih =>
    rw [firstByKey_cons, List.mem_cons]
    by_cases hkey : key c = key a
    · have hfind : (c :: items).find? (fun b => key b == key a) = some c :=
        List.find?_cons_of_pos (beq_iff_eq.2 hkey)
      rw [hfind, Option.some_inj]
      refine ⟨fun h => (h.resolve_right fun hmem => ?_).symm, fun h => Or.inl h.symm⟩
      have hne := (List.mem_filter.1 (mem_of_mem_firstByKey hmem)).2
      exact bne_iff_ne.1 hne hkey.symm
    -- what is left out of the rest has another key
    · have hfind : (c :: items).find? (fun b => key b == key a)
          = items.find? fun b => key b == key a :=
        List.find?_cons_of_neg (mt beq_iff_eq.1 hkey)
      have hrest : (items.filter fun b => key b != key c).find? (fun b => key b == key a)
          = items.find? fun b => key b == key a := Table.find?_filter_of_ne key hkey items
      rw [hfind, ← hrest, ← ih, or_iff_right]
      rintro rfl
      exact hkey rfl

/-- The keys that are left are the keys of the list. -/
theorem mem_map_firstByKey {key : α → κ} {items : List α} {k : κ} :
    k ∈ (firstByKey key items).map key ↔ k ∈ items.map key := by
  constructor
  · exact fun h => ((firstByKey_sublist key items).map key).subset h
  · rintro h
    obtain ⟨a, ha, rfl⟩ := List.mem_map.1 h
    obtain ⟨b, hb, hba⟩ := exists_mem_firstByKey key ha
    exact List.mem_map.2 ⟨b, hb, hba⟩

/-- The same items in another order leave the same keys. -/
theorem perm_keys_firstByKey (key : α → κ) {items other : List α} (h : items.Perm other) :
    ((firstByKey key items).map key).Perm ((firstByKey key other).map key) := by
  rw [List.perm_ext_iff_of_nodup (nodup_keys_firstByKey key items)
    (nodup_keys_firstByKey key other)]
  intro k
  rw [mem_map_firstByKey, mem_map_firstByKey]
  exact (h.map key).mem_iff

/-- Nothing goes from a list whose keys differ. -/
theorem firstByKey_eq_self {key : α → κ} {items : List α} (h : (items.map key).Nodup) :
    firstByKey key items = items := by
  induction items with
  | nil => rfl
  | cons a items ih =>
    rw [List.map_cons, List.nodup_cons] at h
    have hall : (items.filter fun b => key b != key a) = items := by
      rw [List.filter_eq_self]
      intro b hb
      exact bne_iff_ne.2 fun hba => h.1 (List.mem_map.2 ⟨b, hb, hba⟩)
    rw [firstByKey_cons, hall, ih h.2]

/-- Items whose keys are all there already make no difference. -/
theorem firstByKey_append_of_subset {key : α → κ} {items more : List α}
    (h : ∀ b ∈ more, key b ∈ items.map key) :
    firstByKey key (items ++ more) = firstByKey key items := by
  induction items using firstByKey_induction key generalizing more with
  | nil =>
    cases more with
    | nil => rfl
    | cons b more => exact absurd (h b List.mem_cons_self) List.not_mem_nil
  | cons a items ih =>
    rw [List.cons_append, firstByKey_cons, firstByKey_cons, List.filter_append, ih]
    intro b hb
    obtain ⟨hb, hne⟩ := List.mem_filter.1 hb
    have hkey := h b hb
    rw [List.map_cons, List.mem_cons] at hkey
    obtain ⟨c, hc, hcb⟩ := List.mem_map.1 (hkey.resolve_left (bne_iff_ne.1 hne))
    refine List.mem_map.2 ⟨c, List.mem_filter.2 ⟨hc, ?_⟩, hcb⟩
    rw [hcb]
    exact hne

/-- An item with a new key comes last. -/
theorem firstByKey_concat_of_notMem {key : α → κ} {items : List α} {a : α}
    (h : key a ∉ items.map key) : firstByKey key (items ++ [a]) = firstByKey key items ++ [a] := by
  induction items using firstByKey_induction key with
  | nil => rw [List.nil_append, firstByKey_cons]; rfl
  | cons b items ih =>
    rw [List.map_cons, List.mem_cons, not_or] at h
    have hlast : [a].filter (fun c => key c != key b) = [a] := by simp [h.1]
    have hrest : key a ∉ (items.filter fun c => key c != key b).map key := fun hmem =>
      h.2 ((List.filter_sublist.map key).subset hmem)
    rw [List.cons_append, firstByKey_cons, firstByKey_cons, List.filter_append, hlast, ih hrest,
      List.cons_append]

/-! ## Items that are their own keys -/

theorem nodup_eraseDups [BEq α] [LawfulBEq α] (items : List α) : items.eraseDups.Nodup := by
  have h := nodup_keys_firstByKey (fun a : α => a) items
  rwa [List.map_id'] at h

/-- One more item at the end stays if it is a new one. -/
theorem eraseDups_concat_of_mem [BEq α] [LawfulBEq α] {items : List α} {a : α} (h : a ∈ items) :
    (items ++ [a]).eraseDups = items.eraseDups := by
  have hremoved : [a].removeAll items = [] := by simp [List.removeAll, h]
  rw [List.eraseDups_append, hremoved, List.eraseDups_nil, List.append_nil]

theorem eraseDups_concat_of_notMem [BEq α] [LawfulBEq α] {items : List α} {a : α}
    (h : a ∉ items) : (items ++ [a]).eraseDups = items.eraseDups ++ [a] := by
  have hkept : [a].removeAll items = [a] := by simp [List.removeAll, h]
  rw [List.eraseDups_append, hkept, List.eraseDups_cons]
  rfl

/-- Repetitions may be left out before a function as well as after. -/
theorem eraseDups_append_filterMap_eraseDups {β : Type} [BEq α] [LawfulBEq α] [BEq β] [LawfulBEq β]
    (f : α → Option β) (front : List β) (items : List α) :
    (front ++ items.eraseDups.filterMap f).eraseDups = (front ++ items.filterMap f).eraseDups := by
  induction items using List.reverseRecOn with
  | nil => rfl
  | append_singleton items a ih =>
    have hlast : ∀ {kept : List β}, kept.eraseDups = (front ++ items.filterMap f).eraseDups →
        (kept ++ [a].filterMap f).eraseDups = (front ++ (items ++ [a]).filterMap f).eraseDups := by
      intro kept hkept
      have hmem : ∀ b, b ∈ kept ↔ b ∈ front ++ items.filterMap f := fun b => by
        rw [← List.mem_eraseDups, hkept, List.mem_eraseDups]
      rw [List.filterMap_append, ← List.append_assoc]
      cases hb : f a with
      | none => rw [List.filterMap_cons_none hb, List.filterMap_nil, List.append_nil,
          List.append_nil, hkept]
      | some b =>
        rw [List.filterMap_cons_some hb, List.filterMap_nil]
        by_cases hknown : b ∈ kept
        · rw [eraseDups_concat_of_mem hknown, eraseDups_concat_of_mem ((hmem b).1 hknown), hkept]
        · rw [eraseDups_concat_of_notMem hknown,
            eraseDups_concat_of_notMem (mt (hmem b).2 hknown), hkept]
    by_cases hknown : a ∈ items
    -- what the item gives is there already, from its first occurrence
    · have hgiven : (front ++ items.filterMap f ++ [a].filterMap f).eraseDups
          = (front ++ items.filterMap f).eraseDups := by
        cases hb : f a with
        | none => rw [List.filterMap_cons_none hb, List.filterMap_nil, List.append_nil]
        | some b =>
          rw [List.filterMap_cons_some hb, List.filterMap_nil]
          exact eraseDups_concat_of_mem
            (List.mem_append_right _ (List.mem_filterMap.2 ⟨a, hknown, hb⟩))
      rw [eraseDups_concat_of_mem hknown, ih, List.filterMap_append, ← List.append_assoc, hgiven]
    · rw [eraseDups_concat_of_notMem hknown, List.filterMap_append, ← List.append_assoc]
      exact hlast ih

end CodeAtlas.Traversal
