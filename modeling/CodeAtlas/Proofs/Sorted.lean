import Mathlib.Data.List.Basic

/-!
# Lists in the order of a number

In a list that is sorted by a number the items up to a bound come first (`prefix_filter_le`). A
stable sort does not care whether items are read or left out before it or after it
(`filterMap_mergeSort`).
-/

namespace CodeAtlas.Sorted

variable {α : Type}

/-- **The items up to a bound stand in front.** -/
theorem prefix_filter_le {key : α → Nat} {items : List α}
    (h : items.Pairwise fun a b => key a ≤ key b) (bound : Nat) :
    items.filter (fun a => key a ≤ bound) <+: items := by
  induction items with
  | nil => exact List.prefix_rfl
  | cons a items ih =>
    obtain ⟨hfirst, hrest⟩ := List.pairwise_cons.1 h
    by_cases ha : key a ≤ bound
    · rw [List.filter_cons_of_pos (by simpa using ha)]
      exact (List.prefix_cons_inj a).2 (ih hrest)
    -- all items after it are beyond the bound too
    · have hnone : items.filter (fun b => key b ≤ bound) = [] := by
        rw [List.filter_eq_nil_iff]
        intro b hb hle
        exact ha (Nat.le_trans (hfirst b hb) (of_decide_eq_true hle))
      rw [List.filter_cons_of_neg (by simpa using ha), hnone]
      exact List.nil_prefix

/-- What is left after the items in front that satisfy a condition does not satisfy it, if in the
list no item satisfies it after one that does not. -/
theorem not_of_mem_dropWhile {p : α → Bool} {items : List α}
    (h : items.Pairwise fun a b => p b = true → p a = true) {a : α} (ha : a ∈ items.dropWhile p) :
    ¬ p a = true := by
  induction items with
  | nil => exact absurd ha List.not_mem_nil
  | cons b items ih =>
    obtain ⟨hfirst, hrest⟩ := List.pairwise_cons.1 h
    by_cases hb : p b = true
    · rw [List.dropWhile_cons_of_pos hb] at ha
      exact ih hrest ha
    · rw [List.dropWhile_cons_of_neg hb] at ha
      rcases List.mem_cons.1 ha with rfl | ha
      · exact hb
      · exact fun hpa => hb (hfirst a ha hpa)

variable {le : α → α → Bool}

/-- Where an item divides a list in two, the parts are what stands before it and the rest. -/
theorem takeWhile_append_of_le {a : α} {before after : List α}
    (hbefore : ∀ b ∈ before, le a b = false)
    (hafter : ∀ b ∈ after, le a b = true) :
    (before ++ after).takeWhile (fun b => !le a b) = before := by
  have hnone : after.takeWhile (fun b => !le a b) = [] := by
    cases after with
    | nil => rfl
    | cons b after => exact List.takeWhile_cons_of_neg (by simp [hafter b List.mem_cons_self])
  rw [List.takeWhile_append_of_pos fun b hb => by simp [hbefore b hb], hnone, List.append_nil]

variable (trans : ∀ a b c, le a b = true → le b c = true → le a c = true)
  (total : ∀ a b, (le a b || le b a) = true)
include trans total

/-- Where a stable sort puts one item more: behind the items before it, in front of the others. -/
theorem exists_mergeSort_cons (a : α) (items : List α) :
    ∃ before after, (a :: items).mergeSort le = before ++ a :: after ∧
      items.mergeSort le = before ++ after ∧
      (∀ b ∈ before, le a b = false) ∧ ∀ b ∈ after, le a b = true := by
  obtain ⟨before, after, hcons, hitems, hbefore⟩ := List.mergeSort_cons trans total a items
  -- that the others come after it is what the sorted list says
  have hsorted := List.pairwise_mergeSort trans total (a :: items)
  rw [hcons, List.pairwise_append, List.pairwise_cons] at hsorted
  exact ⟨before, after, hcons, hitems, fun b hb => by simpa using hbefore b hb, hsorted.2.1.1⟩

/-- **Sorting and reading can be done in either order**, where what is read from items stands to each
other as the items do. Nothing needs to be read from some of them. -/
theorem filterMap_mergeSort {β : Type} {f : α → Option β} {le' : β → β → Bool}
    (trans' : ∀ a b c, le' a b = true → le' b c = true → le' a c = true)
    (total' : ∀ a b, (le' a b || le' b a) = true)
    (hle : ∀ a b c d, f a = some c → f b = some d → le' c d = le a b) (items : List α) :
    (items.mergeSort le).filterMap f = (items.filterMap f).mergeSort le' := by
  induction items with
  | nil => rw [List.mergeSort_nil, List.filterMap_nil, List.mergeSort_nil]
  | cons a items ih =>
    obtain ⟨before, after, hcons, hitems, hbefore, hafter⟩ :=
      exists_mergeSort_cons trans total a items
    rw [hitems, List.filterMap_append] at ih
    rw [hcons, List.filterMap_append]
    cases hread : f a with
    | none => rw [List.filterMap_cons_none hread, List.filterMap_cons_none hread, ih]
    | some c =>
      obtain ⟨front, back, hpicked, hrest, hfront, hback⟩ :=
        exists_mergeSort_cons trans' total' c (items.filterMap f)
      rw [List.filterMap_cons_some hread, List.filterMap_cons_some hread, hpicked]
      rw [hrest] at ih
      -- both sides divide the same list at the place of the item
      have hleft : ∀ d ∈ before.filterMap f, le' c d = false := by
        intro d hd
        obtain ⟨b, hb, hbd⟩ := List.mem_filterMap.1 hd
        rw [hle a b c d hread hbd, hbefore b hb]
      have hright : ∀ d ∈ after.filterMap f, le' c d = true := by
        intro d hd
        obtain ⟨b, hb, hbd⟩ := List.mem_filterMap.1 hd
        rw [hle a b c d hread hbd, hafter b hb]
      have hsame : before.filterMap f = front := by
        rw [← takeWhile_append_of_le hleft hright, ih, takeWhile_append_of_le hfront hback]
      rw [hsame] at ih ⊢
      rw [List.append_cancel_left ih]

/-- **Sorting and leaving items out can be done in either order.** -/
theorem filter_mergeSort (p : α → Bool) (items : List α) :
    (items.mergeSort le).filter p = (items.filter p).mergeSort le := by
  have hkept : ∀ {a b : α}, Option.guard (p ·) a = some b → a = b :=
    fun h => (Option.guard_eq_some_iff.1 h).1
  rw [← List.filterMap_eq_filter]
  refine filterMap_mergeSort trans total trans total (fun a b c d hc hd => ?_) items
  rw [hkept hc, hkept hd]

end CodeAtlas.Sorted
