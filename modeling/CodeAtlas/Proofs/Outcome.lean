import CodeAtlas.Failure

/-!
# Computations that can fail

A computation in steps succeeds only if every step does, and a loop that succeeds keeps what each of
its steps keeps.
-/

namespace CodeAtlas.Outcome

variable {α β σ : Type}

/-- What a sequence of two steps has come through. -/
theorem exists_of_bind_eq_ok {x : Except Failure α} {f : α → Except Failure β} {b : β}
    (h : (x >>= f) = .ok b) : ∃ a, x = .ok a ∧ f a = .ok b := by
  cases x with
  | error e => cases h
  | ok a => exact ⟨a, rfl, h⟩

/-- What a computation gives, if it is seen to give something. -/
theorem exists_of_isSome_toOption {x : Except Failure α} (h : x.toOption.isSome = true) :
    ∃ a, x = .ok a := by
  cases x with
  | error e => cases h
  | ok a => exact ⟨a, rfl⟩

/-- **An invariant of the steps holds after all of them.** -/
theorem foldlM_of_invariant {step : σ → α → Except Failure σ} {items : List α} {P : σ → Prop}
    (hstep : ∀ s a s', a ∈ items → P s → step s a = .ok s' → P s') {s s' : σ} (hs : P s)
    (h : items.foldlM step s = .ok s') : P s' := by
  induction items generalizing s with
  | nil =>
    cases h
    exact hs
  | cons a items ih =>
    rw [List.foldlM_cons] at h
    obtain ⟨next, hnext, h⟩ := exists_of_bind_eq_ok h
    exact ih (fun s a s' ha => hstep s a s' (List.mem_cons_of_mem _ ha))
      (hstep s a next List.mem_cons_self hs hnext) h

/-- A loop whose steps all succeed does. -/
theorem exists_foldlM {step : σ → α → Except Failure σ}
    (hstep : ∀ s a, ∃ s', step s a = .ok s') (items : List α) (s : σ) :
    ∃ s', items.foldlM step s = .ok s' := by
  induction items generalizing s with
  | nil => exact ⟨s, rfl⟩
  | cons a items ih =>
    obtain ⟨next, hnext⟩ := hstep s a
    rw [List.foldlM_cons, hnext]
    exact ih next

end CodeAtlas.Outcome
