/-!
# Readers

A reader takes a value off the front of a text and hands back what is left of it. What is left is
never longer than the text was; this law is part of the type, so that readers can be put together
freely and a reading that repeats itself still ends.

A reading that fails says nothing about the place: a document is either well written or not.
-/

namespace PacketWire.Toml

/-- Takes a value off the front of a text. -/
structure Reader (α : Type) where
  /-- The value and what is left, or nothing if the text does not begin with such a value. -/
  run : List Char → Option (α × List Char)
  /-- What is left is no longer than the text. -/
  length_le : ∀ {input : List Char} {x : α} {rest : List Char},
    run input = some (x, rest) → rest.length ≤ input.length

namespace Reader

variable {α β : Type}

/-! ### Putting readers together -/

instance : Monad Reader where
  pure x :=
    { run := fun input => some (x, input)
      length_le := by
        intro input y rest h
        cases h
        exact Nat.le_refl _ }
  bind r f :=
    { run := fun input =>
        match r.run input with
        | none => none
        | some (x, rest) => (f x).run rest
      length_le := by
        intro input y rest h
        split at h
        · cases h
        · next x mid hr => exact Nat.le_trans ((f x).length_le h) (r.length_le hr) }

@[simp] theorem run_pure (x : α) (input : List Char) :
    (pure x : Reader α).run input = some (x, input) := rfl

theorem run_bind (r : Reader α) (f : α → Reader β) (input : List Char) :
    (r >>= f).run input =
      match r.run input with
      | none => none
      | some (x, rest) => (f x).run rest := rfl

/-- A reading followed by one that depends on its value. -/
theorem run_bind_of {r : Reader α} {f : α → Reader β} {input rest : List Char} {x : α}
    (h : r.run input = some (x, rest)) : (r >>= f).run input = (f x).run rest := by
  rw [run_bind, h]

def fail : Reader α := ⟨fun _ => none, by intro _ _ _ h; cases h⟩

def ofOption : Option α → Reader α
  | some x => pure x
  | none => fail

def orElse (r s : Reader α) : Reader α where
  run input := (r.run input).or (s.run input)
  length_le := by
    intro input x rest h
    cases hr : r.run input with
    | some y =>
      rw [hr] at h
      exact r.length_le (hr.trans h)
    | none =>
      rw [hr] at h
      exact s.length_le h

def optional (r : Reader α) : Reader (Option α) :=
  orElse (some <$> r) (pure none)

/-- Chooses a reader by the next character, which is left in place. -/
def byNext (choose : Char → Reader α) : Reader α where
  run
    | [] => none
    | c :: rest => (choose c).run (c :: rest)
  length_le := by
    intro input x rest h
    cases input with
    | nil => cases h
    | cons c cs => exact (choose c).length_le h

/-! ### Characters -/

def satisfying (p : Char → Bool) : Reader Char where
  run
    | [] => none
    | c :: rest => if p c then some (c, rest) else none
  length_le := by
    intro input x rest h
    cases input with
    | nil => cases h
    | cons c cs =>
      simp only at h
      split at h
      · cases h
        exact Nat.le_succ _
      · cases h

def any : Reader Char := satisfying fun _ => true

def char (c : Char) : Reader Unit := do
  let _ ← satisfying (· = c)

def exactly : List Char → Reader Unit
  | [] => pure ()
  | c :: cs => do
    char c
    exactly cs

def takeWhile (p : Char → Bool) : Reader (List Char) where
  run input := some (input.takeWhile p, input.dropWhile p)
  length_le := by
    intro input x rest h
    cases h
    exact (List.dropWhile_sublist p).length_le

def takeWhile₁ (p : Char → Bool) : Reader (List Char) := do
  let c ← satisfying p
  let cs ← takeWhile p
  return c :: cs

def exactCount (p : Char → Bool) : Nat → Reader (List Char)
  | 0 => pure []
  | n + 1 => do
    let c ← satisfying p
    let cs ← exactCount p n
    return c :: cs

/-- Skips by a function that only ever drops characters. -/
def skip (drop : List Char → List Char) (le : ∀ input, (drop input).length ≤ input.length) :
    Reader Unit where
  run input := some ((), drop input)
  length_le := by
    intro input x rest h
    cases h
    exact le input

/-! ### Lists -/

/-- Items with a separator between them, at least one. A separator that no item follows is left
in place. -/
def separatedBy (separator : Char) (item : Reader α) (input : List Char) :
    Option (List α × List Char) :=
  match _h : item.run input with
  | none => none
  | some (x, []) => some ([x], [])
  | some (x, c :: rest) =>
    if c = separator then
      match separatedBy separator item rest with
      | some (xs, after) => some (x :: xs, after)
      -- The separator is not followed by an item, so it does not belong to the list.
      | none => some ([x], c :: rest)
    else some ([x], c :: rest)
termination_by input.length
decreasing_by
  have := item.length_le _h
  simp only [List.length_cons] at this
  omega

theorem length_separatedBy_le {separator : Char} {item : Reader α} {input rest : List Char}
    {xs : List α} (h : separatedBy separator item input = some (xs, rest)) :
    rest.length ≤ input.length := by
  fun_induction separatedBy separator item input generalizing xs with
  | case1 => cases h
  | case2 input x hr | case4 input x after _ hr _ | case5 input x c after hr _ =>
    cases h
    exact item.length_le hr
  | case3 input x after ys left hy hr ih =>
    cases h
    have := ih hy
    have := item.length_le hr
    simp only [List.length_cons] at this
    omega

def separated (separator : Char) (item : Reader α) : Reader (List α) where
  run := separatedBy separator item
  length_le := length_separatedBy_le

end Reader

end PacketWire.Toml
