/-!
# Tables

A table is a list of items with keys, and what stands under a key is the first item that has it. Items of
other keys do not matter to that: they may go (`find?_filter_of_ne`) and get new values (`find?_put`). The
tables of the library are each changed by a function of their own, which is `put` at their type.
-/

namespace CodeAtlas.Table

variable {α κ : Type} [BEq κ] {k other : κ} {value : α} {items : List (κ × α)}

/-- **The table with a value under a key**, in the place of the value that is there, or else at the end. -/
def put (k : κ) (value : α) : List (κ × α) → List (κ × α)
  | [] => [(k, value)]
  | (key, old) :: rest => if key == k then (key, value) :: rest else (key, old) :: put k value rest

variable [LawfulBEq κ]

/-! ## Items of other keys -/

/-- Nothing is found under a key whose items are taken away. -/
theorem find?_filter_self (key : α → κ) (k : κ) (items : List α) :
    (items.filter (key · != k)).find? (key · == k) = none := by
  rw [List.find?_eq_none]
  intro item hitem hkey
  exact bne_iff_ne.1 (List.mem_filter.1 hitem).2 (eq_of_beq hkey)

/-- The items of another key can be taken away. -/
theorem find?_filter_of_ne (key : α → κ) (h : other ≠ k) (items : List α) :
    (items.filter (key · != other)).find? (key · == k) = items.find? (key · == k) := by
  rw [List.find?_filter]
  congr 1
  funext item
  rw [Bool.eq_iff_iff, decide_eq_true_iff, and_iff_right_iff_imp, beq_iff_eq, bne_iff_ne]
  exact fun hitem hother => h (hother.symm.trans hitem)

/-! ## A value more -/

theorem mem_put {item : κ × α} (h : item ∈ put k value items) : item.1 = k ∨ item ∈ items := by
  induction items with
  | nil => exact Or.inl (by rw [List.mem_singleton.1 h])
  | cons first items ih =>
    rw [put] at h
    split at h
    · rename_i hkey
      rcases List.mem_cons.1 h with rfl | h
      · exact Or.inl (eq_of_beq hkey)
      · exact Or.inr (List.mem_cons_of_mem first h)
    · rcases List.mem_cons.1 h with rfl | h
      · exact Or.inr List.mem_cons_self
      · exact (ih h).imp_right (List.mem_cons_of_mem first)

/-- **What is found once a value is put under a key.** -/
theorem find?_put (k : κ) (value : α) (other : κ) (items : List (κ × α)) :
    (put k value items).find? (·.1 == other)
      = if k == other then some (k, value) else items.find? (·.1 == other) := by
  induction items with
  | nil =>
    rw [put, List.find?_cons]
    cases k == other <;> rfl
  | cons item items ih =>
    obtain ⟨key, old⟩ := item
    rw [put]
    cases hkey : key == k with
    | true =>
      rw [eq_of_beq hkey, if_pos rfl, List.find?_cons, List.find?_cons]
      cases k == other <;> rfl
    | false =>
      rw [if_neg Bool.false_ne_true, List.find?_cons, List.find?_cons, ih]
      -- the item that is passed has neither of two equal keys
      cases hother : k == other with
      | false => rfl
      | true => rw [← eq_of_beq hother, hkey]

end CodeAtlas.Table
