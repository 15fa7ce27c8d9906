import PacketWire.Toml.Key

/-!
# What readers read

How each reader runs on a text whose front is known. With these equations a composed reader is run
by rewriting: its steps one after the other with `run_bind_of`, or the first failure with
`run_bind_of_none`.
-/

namespace PacketWire.Toml.Reader

variable {α β : Type} {r s : Reader α} {input rest : List Char} {x : α}

/-! ### Putting readers together -/

/-- Two readers in a row succeed just if the second one does on what the first one left. -/
theorem run_bind_eq_some_iff {f : α → Reader β} {y : β} :
    (r >>= f).run input = some (y, rest) ↔
      ∃ x mid, r.run input = some (x, mid) ∧ (f x).run mid = some (y, rest) := by
  constructor
  · intro h
    rw [run_bind] at h
    split at h
    · cases h
    · next x mid hr => exact ⟨x, mid, hr, h⟩
  · rintro ⟨x, mid, hr, h⟩
    rw [run_bind_of hr, h]

theorem run_bind_of_none {f : α → Reader β} (h : r.run input = none) :
    (r >>= f).run input = none := by
  rw [run_bind, h]

theorem run_map_of {f : α → β} (h : r.run input = some (x, rest)) :
    (f <$> r).run input = some (f x, rest) :=
  run_bind_of h

theorem run_map_of_none {f : α → β} (h : r.run input = none) : (f <$> r).run input = none :=
  run_bind_of_none h

@[simp] theorem run_ofOption_some : (ofOption (some x)).run input = some (x, input) := rfl

theorem run_orElse_of (h : r.run input = some (x, rest)) :
    (orElse r s).run input = some (x, rest) := by
  simp [orElse, h]

/-- The second reader starts where the first one did. -/
theorem run_orElse_of_none (h : r.run input = none) : (orElse r s).run input = s.run input := by
  simp [orElse, h]

theorem run_optional_of (h : r.run input = some (x, rest)) :
    r.optional.run input = some (some x, rest) :=
  run_orElse_of (run_map_of h)

theorem run_optional_of_none (h : r.run input = none) :
    r.optional.run input = some (none, input) :=
  run_orElse_of_none (run_map_of_none h)

@[simp] theorem run_byNext {choose : Char → Reader α} {c : Char} :
    (byNext choose).run (c :: rest) = (choose c).run (c :: rest) := rfl

/-! ### Characters -/

/-- A text does not begin with a character of the class. -/
def NotNext (p : Char → Bool) (text : List Char) : Prop := ∀ c ∈ text.head?, p c = false

@[simp] theorem notNext_nil {p : Char → Bool} : NotNext p [] := by simp [NotNext]

@[simp] theorem notNext_cons {p : Char → Bool} {c : Char} :
    NotNext p (c :: rest) ↔ p c = false := by
  simp [NotNext]

/-- If no character of a class comes next, then none of a smaller class does. -/
theorem NotNext.mono {p q : Char → Bool} (h : NotNext p rest) (hpq : ∀ c, q c = true → p c = true) :
    NotNext q rest := by
  intro c hc
  have hp := h c hc
  rw [Bool.eq_false_iff] at hp ⊢
  exact fun hq => hp (hpq c hq)

theorem NotNext.ne {p : Char → Bool} {c : Char} (h : NotNext p rest) (hc : p c = true) :
    NotNext (· = c) rest := by
  apply h.mono
  intro d hd
  rwa [of_decide_eq_true hd]

theorem run_satisfying_of {p : Char → Bool} {c : Char} (h : p c = true) :
    (satisfying p).run (c :: rest) = some (c, rest) :=
  if_pos h

theorem run_satisfying_of_not {p : Char → Bool} {c : Char} (h : p c = false) :
    (satisfying p).run (c :: rest) = none := by
  simp [satisfying, h]

theorem run_satisfying_of_notNext {p : Char → Bool} (h : NotNext p rest) :
    (satisfying p).run rest = none := by
  cases rest with
  | nil => rfl
  | cons c rest => exact run_satisfying_of_not (notNext_cons.mp h)

@[simp] theorem run_char {c : Char} : (char c).run (c :: rest) = some ((), rest) := by
  rw [char, run_bind_of (run_satisfying_of (by simp))]
  rfl

theorem run_char_of_ne {c d : Char} (h : d ≠ c) : (char c).run (d :: rest) = none := by
  rw [char]
  exact run_bind_of_none (run_satisfying_of_not (by simp [h]))

theorem run_char_of_notNext {c : Char} (h : NotNext (· = c) rest) : (char c).run rest = none := by
  cases rest with
  | nil => rfl
  | cons d rest => exact run_char_of_ne (by simpa using h)

theorem run_exactly (cs : List Char) : (exactly cs).run (cs ++ rest) = some ((), rest) := by
  induction cs with
  | nil => rfl
  | cons c cs ih => rw [exactly, List.cons_append, run_bind_of run_char, ih]

theorem run_exactly_of_ne {c d : Char} {cs : List Char} (h : d ≠ c) :
    (exactly (c :: cs)).run (d :: rest) = none :=
  run_bind_of_none (run_char_of_ne h)

theorem run_exactly_of_notNext {c : Char} {cs : List Char} (h : NotNext (· = c) rest) :
    (exactly (c :: cs)).run rest = none := by
  rw [exactly]
  exact run_bind_of_none (run_char_of_notNext h)

theorem run_exactly_cons {c : Char} {cs : List Char} :
    (exactly (c :: cs)).run (c :: rest) = (exactly cs).run rest := by
  rw [exactly, run_bind_of run_char]

/-! ### Runs of characters -/

theorem takeWhile_eq_nil {p : Char → Bool} (h : NotNext p rest) : rest.takeWhile p = [] := by
  cases rest with
  | nil => rfl
  | cons c rest => simp [notNext_cons.mp h]

theorem dropWhile_eq_self {p : Char → Bool} (h : NotNext p rest) : rest.dropWhile p = rest := by
  cases rest with
  | nil => rfl
  | cons c rest => simp [notNext_cons.mp h]

/-- A run of characters of a class ends where another character comes. -/
theorem run_takeWhile {p : Char → Bool} {cs : List Char} (hcs : ∀ c ∈ cs, p c = true)
    (hrest : NotNext p rest) : (takeWhile p).run (cs ++ rest) = some (cs, rest) := by
  show some ((cs ++ rest).takeWhile p, (cs ++ rest).dropWhile p) = some (cs, rest)
  rw [List.takeWhile_append_of_pos hcs, List.dropWhile_append_of_pos hcs, takeWhile_eq_nil hrest,
    dropWhile_eq_self hrest, List.append_nil]

/-- A run of characters is read off as a whole when no such character follows it. -/
theorem run_takeWhile₁ {p : Char → Bool} {cs : List Char} (hcs : ∀ c ∈ cs, p c = true)
    (hne : cs ≠ []) (hrest : NotNext p rest) :
    (takeWhile₁ p).run (cs ++ rest) = some (cs, rest) := by
  obtain ⟨c, cs, rfl⟩ := List.exists_cons_of_ne_nil hne
  rw [takeWhile₁, List.cons_append, run_bind_of (run_satisfying_of (hcs c (by simp))),
    run_bind_of (run_takeWhile (fun d hd => hcs d (by simp [hd])) hrest)]
  rfl

theorem run_exactCount {p : Char → Bool} {cs : List Char} (hcs : ∀ c ∈ cs, p c = true) :
    (exactCount p cs.length).run (cs ++ rest) = some (cs, rest) := by
  induction cs with
  | nil => rfl
  | cons c cs ih =>
    rw [List.length_cons, exactCount, List.cons_append,
      run_bind_of (run_satisfying_of (hcs c (by simp))),
      run_bind_of (ih fun d hd => hcs d (by simp [hd]))]
    rfl

/-- A counted run takes characters of its class only, so what stands behind all of them stays. -/
theorem dropWhile_of_run_exactCount {p : Char → Bool} {n : Nat} {cs : List Char}
    (h : (exactCount p n).run input = some (cs, rest)) :
    rest.dropWhile p = input.dropWhile p := by
  induction n generalizing input cs with
  | zero =>
    cases h
    rfl
  | succ n ih =>
    cases input with
    | nil => cases h
    | cons c input =>
      cases hc : p c with
      | false =>
        rw [exactCount, run_bind_of_none (run_satisfying_of_not hc)] at h
        cases h
      | true =>
        rw [exactCount, run_bind_of (run_satisfying_of hc), run_bind_eq_some_iff] at h
        obtain ⟨cs', rest', hrest, heq⟩ := h
        cases heq
        rw [ih hrest, List.dropWhile_cons, if_pos hc]

/-! ### Lists -/

/-- A single item, which no separator follows. -/
theorem run_separated_of {separator : Char} {item : Reader α}
    (h : item.run input = some (x, rest)) (hrest : NotNext (· = separator) rest) :
    (separated separator item).run input = some ([x], rest) := by
  show separatedBy separator item input = _
  rw [separatedBy]
  -- The definition keeps the equation of its match, so the cases are split and not rewritten.
  split
  · next hnone => simp [h] at hnone
  · next y hy =>
    rw [h] at hy
    cases hy
    rfl
  · next y c after hy =>
    rw [h] at hy
    cases hy
    rw [if_neg (by simpa using hrest)]

theorem run_separated_of_none {separator : Char} {item : Reader α} (h : item.run input = none) :
    (separated separator item).run input = none := by
  show separatedBy separator item input = none
  rw [separatedBy]
  split
  · rfl
  · next hy => simp [h] at hy
  · next hy => simp [h] at hy

/-! ### Every value that is read -/

/-- Whatever text it is given, the reader reads only values of that kind. -/
def Yields (r : Reader α) (P : α → Prop) : Prop :=
  ∀ input x rest, r.run input = some (x, rest) → P x

section

variable {P : α → Prop} {Q : β → Prop}

theorem Yields.any : r.Yields fun _ => True := fun _ _ _ _ => trivial

theorem Yields.pure (h : P x) : (pure x : Reader α).Yields P := by
  intro input y rest hread
  cases hread
  exact h

/-- What holds after the second reader may depend on what holds after the first one. -/
theorem Yields.bind {f : α → Reader β} (hr : r.Yields P) (hf : ∀ {x}, P x → (f x).Yields Q) :
    (r >>= f).Yields Q := by
  intro input y rest hread
  obtain ⟨x, mid, hx, hy⟩ := run_bind_eq_some_iff.mp hread
  exact hf (hr _ _ _ hx) _ _ _ hy

/-- A step whose value does not matter to what is read after it. -/
theorem Yields.after {f : α → Reader β} (hf : ∀ x, (f x).Yields Q) : (r >>= f).Yields Q :=
  Yields.any.bind fun {x} _ => hf x

theorem Yields.map {f : α → β} (hr : r.Yields P) (hf : ∀ {x}, P x → Q (f x)) :
    (f <$> r).Yields Q :=
  hr.bind fun hx => .pure (hf hx)

theorem Yields.ofOption {o : Option α} (h : ∀ {x}, o = some x → P x) :
    (ofOption o).Yields P := by
  cases o with
  | none => exact nofun
  | some x => exact .pure (h rfl)

theorem Yields.orElse (hr : r.Yields P) (hs : s.Yields P) : (orElse r s).Yields P := by
  intro input x rest hread
  cases hfirst : r.run input with
  | none =>
    rw [run_orElse_of_none hfirst] at hread
    exact hs _ _ _ hread
  | some y =>
    rw [run_orElse_of hfirst] at hread
    cases hread
    exact hr _ _ _ hfirst

theorem Yields.optional (hr : r.Yields P) : r.optional.Yields fun o => ∀ x ∈ o, P x :=
  .orElse (hr.map fun hx y hy => by cases hy; exact hx) (.pure nofun)

theorem Yields.byNext {choose : Char → Reader α} (h : ∀ c, (choose c).Yields P) :
    (byNext choose).Yields P := by
  intro input x rest hread
  cases input with
  | nil => cases hread
  | cons c input => exact h c _ _ _ hread

theorem Yields.separated {separator : Char} (hr : r.Yields P) :
    (separated separator r).Yields fun xs => ∀ x ∈ xs, P x := by
  intro input xs rest hread
  change separatedBy separator r input = some (xs, rest) at hread
  fun_induction separatedBy separator r input generalizing xs with
  | case1 => cases hread
  | case2 input x hx | case4 input x after _ hx _ | case5 input x c after hx _ =>
    cases hread
    exact List.forall_mem_singleton.mpr (hr _ _ _ hx)
  | case3 input x after ys left hys hx ih =>
    cases hread
    exact List.forall_mem_cons.mpr ⟨hr _ _ _ hx, ih _ hys⟩

end

end PacketWire.Toml.Reader
