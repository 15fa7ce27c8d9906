/-!
# Computations that may fail

When a computation in `Except` that is made of steps succeeds: exactly when every step does. It
fails with the first step that does.
-/

namespace PacketWire

variable {ε ε' α β : Type}

@[simp] theorem pure_eq_ok (x : α) : (pure x : Except ε α) = .ok x := rfl

@[simp] theorem ok_bind (x : α) (f : α → Except ε β) : (Except.ok x >>= f) = f x := rfl

@[simp] theorem error_bind (e : ε) (f : α → Except ε β) :
    ((Except.error e : Except ε α) >>= f) = .error e := rfl

/-- A computation in two steps succeeds just if both steps do. -/
theorem bind_eq_ok_iff {r : Except ε α} {f : α → Except ε β} {y : β} :
    (r >>= f) = .ok y ↔ ∃ x, r = .ok x ∧ f x = .ok y := by
  cases r <;> simp

/-- A computation in two steps fails in the first one, or in the second one after it. -/
theorem bind_eq_error_iff {r : Except ε α} {f : α → Except ε β} {e : ε} :
    (r >>= f) = .error e ↔ r = .error e ∨ ∃ x, r = .ok x ∧ f x = .error e := by
  cases r <;> simp

@[simp] theorem mapError_ok (f : ε → ε') (x : α) :
    (Except.ok x : Except ε α).mapError f = .ok x := rfl

@[simp] theorem mapError_error (f : ε → ε') (e : ε) :
    (Except.error e : Except ε α).mapError f = .error (f e) := rfl

theorem map_eq_bind (f : α → β) (r : Except ε α) : r.map f = do return f (← r) := by
  cases r <;> rfl

theorem mapError_eq_ok_iff {f : ε → ε'} {r : Except ε α} {x : α} :
    r.mapError f = .ok x ↔ r = .ok x := by
  cases r <;> simp

theorem mapError_eq_error_iff {f : ε → ε'} {r : Except ε α} {e' : ε'} :
    r.mapError f = .error e' ↔ ∃ e, r = .error e ∧ f e = e' := by
  cases r <;> simp

/-- What every step of a fold keeps, the whole fold keeps. -/
theorem foldlM_keeps {f : β → α → Except ε β} {xs : List α} {s s' : β} {P : β → Prop} (hs : P s)
    (hf : ∀ s s', ∀ x ∈ xs, P s → f s x = .ok s' → P s') (h : xs.foldlM f s = .ok s') : P s' := by
  induction xs generalizing s with
  | nil =>
    cases h
    exact hs
  | cons x xs ih =>
    rw [List.foldlM_cons, bind_eq_ok_iff] at h
    obtain ⟨next, hnext, h⟩ := h
    apply ih (hf s next x List.mem_cons_self hs hnext) ?_ h
    intro s s' y hy
    exact hf s s' y (List.mem_cons_of_mem x hy)

end PacketWire
