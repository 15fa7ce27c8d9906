import PacketWire.Proofs.Toml.Text
import PacketWire.Toml.Section

/-!
# Values read back

Every value that a line may hold is read back from its spelling (`run_value`). A natural number is
tried as a moment and in three other bases before it is read as a decimal; what stands behind its
digits rules all of these out.
-/

namespace PacketWire.Toml

open Reader (NotNext)

variable {n : Nat} {cs rest : List Char}

/-! ### Decimal digits -/

theorem isDigit_toDigits : ∀ c ∈ Nat.toDigits 10 n, c.isDigit = true :=
  fun _ hc => Nat.isDigit_of_mem_toDigits (by decide) (by decide) hc

theorem toDigits_eq_cons (n : Nat) :
    ∃ c cs, Nat.toDigits 10 n = c :: cs ∧ c.isDigit = true := by
  obtain ⟨c, cs, hdigits⟩ : ∃ c cs, Nat.toDigits 10 n = c :: cs :=
    List.exists_cons_of_ne_nil Nat.toDigits_ne_nil
  exact ⟨c, cs, hdigits, isDigit_toDigits (n := n) c (by simp [hdigits])⟩

theorem ne_of_isDigit {c d : Char} (hc : c.isDigit = true) (hd : d.isDigit = false) : c ≠ d := by
  rintro rfl
  simp [hc] at hd

/-- Only the number zero begins with a zero. -/
theorem exists_toDigits_eq_cons (h : 0 < n) :
    ∃ c cs, Nat.toDigits 10 n = c :: cs ∧ c ≠ '0' := by
  induction n using Nat.strongRecOn with
  | _ n ih =>
    by_cases hn : n < 10
    · refine ⟨n.digitChar, [], Nat.toDigits_of_lt_base hn, ?_⟩
      rw [ne_eq, Nat.digitChar_eq_zero]
      omega
    · obtain ⟨c, cs, hdigits, hc⟩ := ih (n / 10) (by omega) (by omega)
      refine ⟨c, cs ++ [(n % 10).digitChar], ?_, hc⟩
      rw [Nat.toDigits_of_base_le (by decide) (by omega), hdigits, List.cons_append]

theorem hexValue?_of_isDigit {c : Char} (h : c.isDigit = true) :
    hexValue? c = some (c.toNat - '0'.toNat) :=
  if_pos h

/-- Digits mean the same number here as in the library. -/
theorem ofDigits_eq_ofDigitChars (h : ∀ c ∈ cs, c.isDigit = true) :
    ofDigits 10 cs = Nat.ofDigitChars 10 cs 0 := by
  -- Both are folds, so the induction goes over all values to start from.
  have hfold : ∀ init, cs.foldl (fun n c => n * 10 + (hexValue? c).getD 0) init =
      Nat.ofDigitChars 10 cs init := by
    induction cs with
    | nil =>
      intro init
      rfl
    | cons c cs ih =>
      intro init
      rw [List.foldl_cons, ih (fun d hd => h d (by simp [hd])), Nat.ofDigitChars_cons,
        hexValue?_of_isDigit (h c (by simp)), Nat.mul_comm]
      rfl
  exact hfold 0

@[simp] theorem ofDigits_toDigits : ofDigits 10 (Nat.toDigits 10 n) = n := by
  rw [ofDigits_eq_ofDigitChars isDigit_toDigits, Nat.ofDigitChars_ten_toDigits]

/-! ### Moments -/

/-- The characters that may follow a digit in a number or a moment. -/
def isNumberPart (c : Char) : Bool := c.isAlphanum || c = '_' || c = '-' || c = ':' || c = '.'

theorem isDigit_eq_false_of_isNumberPart {c : Char} (h : isNumberPart c = false) :
    c.isDigit = false := by
  simp only [isNumberPart, Bool.or_eq_false_iff, Char.isAlphanum] at h
  exact h.1.1.1.1.2

/-- A number of a moment takes digits only, so what stands behind all of them stays. -/
theorem dropWhile_of_run_field {digits low high : Nat} {input : List Char}
    (h : (Moment.field digits low high).run input = some (n, rest)) :
    rest.dropWhile Char.isDigit = input.dropWhile Char.isDigit := by
  obtain ⟨m, mid, hdigits, hrange⟩ := Reader.run_bind_eq_some_iff.mp h
  obtain ⟨cs, mid', hcount, heq⟩ := Reader.run_bind_eq_some_iff.mp hdigits
  cases heq
  split at hrange
  · cases hrange
    exact Reader.dropWhile_of_run_exactCount hcount
  · cases hrange

/-- No character follows a number of a moment that does not stand behind all digits. -/
theorem run_field_char {α : Type} {digits low high : Nat} {input : List Char} {c : Char}
    {f : Nat → Unit → Reader α} (hc : c.isDigit = false)
    (hnext : NotNext (· = c) (input.dropWhile Char.isDigit)) :
    (Moment.field digits low high >>= fun n => Reader.char c >>= f n).run input = none := by
  rw [Option.eq_none_iff_forall_ne_some]
  rintro ⟨x, rest⟩ h
  obtain ⟨n, mid, hfield, h⟩ := Reader.run_bind_eq_some_iff.mp h
  cases mid with
  | nil => cases h
  | cons d mid =>
    by_cases hd : d = c
    -- The character would stand behind all digits of the text.
    · subst hd
      rw [← dropWhile_of_run_field hfield, Reader.dropWhile_eq_self (Reader.notNext_cons.mpr hc)]
        at hnext
      simp at hnext
    · rw [Reader.run_bind_of_none (Reader.run_char_of_ne hd)] at h
      cases h

/-- Digits are no moment unless a hyphen or a colon follows them. -/
theorem run_moment_toDigits (hrest : NotNext isNumberPart rest) :
    Moment.reader.run (Nat.toDigits 10 n ++ rest) = none := by
  have hdrop : (Nat.toDigits 10 n ++ rest).dropWhile Char.isDigit = rest := by
    rw [List.dropWhile_append_of_pos isDigit_toDigits]
    exact Reader.dropWhile_eq_self fun c hc => isDigit_eq_false_of_isNumberPart (hrest c hc)
  have hdated : Moment.datedReader.run (Nat.toDigits 10 n ++ rest) = none := by
    apply Reader.run_bind_of_none
    apply run_field_char rfl
    rw [hdrop]
    exact hrest.ne rfl
  have htime : Moment.timeReader.run (Nat.toDigits 10 n ++ rest) = none := by
    apply run_field_char rfl
    rw [hdrop]
    exact hrest.ne rfl
  rw [Moment.reader, Reader.run_orElse_of_none hdated]
  exact Reader.run_map_of_none htime

/-! ### Numbers -/

theorem moreDigits_append (hcs : ∀ c ∈ cs, c.isDigit = true) (hrest : NotNext isNumberPart rest) :
    Number.moreDigits Char.isDigit (cs ++ rest) = some (cs, rest) := by
  induction cs with
  | nil =>
    cases rest with
    | nil => rfl
    | cons c rest =>
      have hc : isNumberPart c = false := by simpa using hrest
      have hunderscore : c ≠ '_' := by
        rintro rfl
        exact absurd hc (by decide)
      rw [List.nil_append, Number.moreDigits,
        if_neg (by simp [isDigit_eq_false_of_isNumberPart hc]), if_neg hunderscore]
  | cons c cs ih =>
    rw [List.cons_append, Number.moreDigits, if_pos (hcs c (by simp)),
      ih fun d hd => hcs d (by simp [hd])]
    rfl

/-- The digits of a number are read as a whole part: none has a zero in front of others. -/
theorem run_whole_toDigits (hrest : NotNext isNumberPart rest) :
    Number.whole.run (Nat.toDigits 10 n ++ rest) = some (Nat.toDigits 10 n, rest) := by
  rcases Nat.eq_zero_or_pos n with rfl | hn
  · rw [Nat.toDigits_zero]
    rfl
  · obtain ⟨c, cs, hdigits, hc⟩ := exists_toDigits_eq_cons hn
    have hall : ∀ d ∈ c :: cs, d.isDigit = true := hdigits ▸ isDigit_toDigits
    rw [hdigits, List.cons_append, Number.whole,
      Reader.run_bind_of (Reader.run_satisfying_of (hall c (by simp))), if_neg hc]
    exact Reader.run_bind_of (moreDigits_append (fun d hd => hall d (by simp [hd])) hrest)

/-- Digits have no mark of another base among them. -/
theorem run_based_toDigits {mark : Char} {base : Nat} {isDigit : Char → Bool}
    (hmark : isNumberPart mark = true) (hrest : NotNext isNumberPart rest) :
    (Number.based mark base isDigit).run (Nat.toDigits 10 n ++ rest) = none := by
  rw [Number.based]
  apply Reader.run_bind_of_none
  rcases Nat.eq_zero_or_pos n with rfl | hn
  -- The zero is read, but what follows it is not the mark.
  · rw [Nat.toDigits_zero, List.cons_append, Reader.run_exactly_cons]
    exact Reader.run_exactly_of_notNext (hrest.ne hmark)
  · obtain ⟨c, cs, hdigits, hc⟩ := exists_toDigits_eq_cons hn
    rw [hdigits]
    exact Reader.run_exactly_of_ne hc

theorem inRange_natCast (hn : n ≤ Int64.maxValue.toInt) :
    Number.inRange n = some (.integer (Int64.ofInt n)) := by
  have hmin : Int64.minValue.toInt ≤ n := Int.le_trans (by decide) (Int.natCast_nonneg n)
  rw [Number.inRange, if_pos ⟨hmin, hn⟩]

theorem ofParts_none {digits : List Char} :
    Number.ofParts false digits none none = Number.inRange (ofDigits 10 digits) := by
  simp [Number.ofParts]

/-- Behind the digits of a whole number nothing more is read. What is made of the parts is kept
general, since the range of an integer is too large to be computed with. -/
theorem run_parts {input digits : List Char}
    (make : List Char → Option (List Char) → Option Int → Option Number)
    (hwhole : Number.whole.run input = some (digits, rest)) (hrest : NotNext isNumberPart rest) :
    (do
      let digits ← Number.whole
      let places ← Reader.optional Number.fraction
      let power ← Reader.optional Number.exponent
      Reader.ofOption (make digits places power)).run input =
    (Reader.ofOption (make digits none none)).run rest := by
  have hfraction : Number.fraction.run rest = none := by
    apply Reader.run_bind_of_none
    exact Reader.run_char_of_notNext (hrest.ne rfl)
  have hexponent : Number.exponent.run rest = none := by
    apply Reader.run_bind_of_none
    apply Reader.run_satisfying_of_notNext
    apply hrest.mono
    intro d hd
    rw [Bool.or_eq_true, decide_eq_true_eq, decide_eq_true_eq] at hd
    rcases hd with rfl | rfl <;> decide
  rw [Reader.run_bind_of hwhole, Reader.run_bind_of (Reader.run_optional_of_none hfraction),
    Reader.run_bind_of (Reader.run_optional_of_none hexponent)]

/-- Digits without a sign, a fraction and a power of ten are an integer. -/
theorem run_decimal_of_whole {c : Char} {digits : List Char} (hc : c.isDigit = true)
    (hwhole : Number.whole.run (c :: cs) = some (digits, rest))
    (hrest : NotNext isNumberPart rest) :
    Number.decimal.run (c :: cs) =
      (Reader.ofOption (Number.inRange (ofDigits 10 digits))).run rest := by
  have hsign : Number.sign.run (c :: cs) = some (false, c :: cs) := by
    refine Reader.run_bind_of (Reader.run_optional_of_none (Reader.run_satisfying_of_not ?_))
    simp [ne_of_isDigit hc (d := '+') rfl, ne_of_isDigit hc (d := '-') rfl]
  rw [Number.decimal, Reader.run_bind_of hsign, Reader.run_byNext, if_neg (ne_of_isDigit hc rfl),
    if_neg (ne_of_isDigit hc rfl), run_parts (Number.ofParts false) hwhole hrest, ofParts_none]

theorem run_decimal_toDigits (hn : n ≤ Int64.maxValue.toInt) (hrest : NotNext isNumberPart rest) :
    Number.decimal.run (Nat.toDigits 10 n ++ rest) =
      some (.integer (Int64.ofInt n), rest) := by
  obtain ⟨c, cs, hdigits, hc⟩ := toDigits_eq_cons n
  have hwhole : Number.whole.run (c :: (cs ++ rest)) = some (Nat.toDigits 10 n, rest) := by
    rw [← List.cons_append, ← hdigits, run_whole_toDigits hrest]
  rw [hdigits, List.cons_append, run_decimal_of_whole hc hwhole hrest, ofDigits_toDigits,
    inRange_natCast hn, Reader.run_ofOption_some]

/-- Digits alone name no base, so that they are read as a decimal number. -/
theorem run_number_toDigits (hn : n ≤ Int64.maxValue.toInt) (hrest : NotNext isNumberPart rest) :
    Number.reader.run (Nat.toDigits 10 n ++ rest) = some (.integer (Int64.ofInt n), rest) := by
  rw [Number.reader, Reader.run_orElse_of_none (run_based_toDigits rfl hrest),
    Reader.run_orElse_of_none (run_based_toDigits rfl hrest),
    Reader.run_orElse_of_none (run_based_toDigits rfl hrest),
    run_decimal_toDigits hn hrest]

/-! ### Values -/

def Scalar.value : Scalar → Value
  | .text s => .text s
  | .natural n => .number (.integer (Int64.ofInt n))
  | .boolean b => .boolean b

/-- A natural number has to fit into 64 bits with a sign. -/
def Scalar.Fits : Scalar → Prop
  | .natural n => n ≤ Int64.maxValue.toInt
  | .text _ | .boolean _ => True

theorem run_flat_text (s : String) (hrest : NotNext isQuote rest) :
    value.flat.run (spellText s ++ rest) = some (.text s, rest) := by
  have htext := run_textValue s hrest
  obtain ⟨later, hspell⟩ := (Style.choose s.toList).spell_eq_cons s.toList
  have hquote : ((Style.choose s.toList).quote = '"' ||
      (Style.choose s.toList).quote = '\'') = true := by
    cases Style.choose s.toList <;> rfl
  rw [spellText, hspell, List.cons_append] at htext ⊢
  rw [value.flat, Reader.run_byNext, if_pos hquote, Reader.run_map_of htext]

theorem run_flat_natural (hn : n ≤ Int64.maxValue.toInt) (hrest : NotNext isNumberPart rest) :
    value.flat.run (Nat.toDigits 10 n ++ rest) =
      some (.number (.integer (Int64.ofInt n)), rest) := by
  have hmoment := run_moment_toDigits (n := n) hrest
  have hnumber := run_number_toDigits hn hrest
  obtain ⟨c, cs, hdigits, hc⟩ := toDigits_eq_cons n
  rw [hdigits, List.cons_append] at hmoment hnumber ⊢
  rw [value.flat, Reader.run_byNext, if_neg (by simp [ne_of_isDigit hc]),
    if_neg (by simp [ne_of_isDigit hc]), Reader.run_orElse_of_none (Reader.run_map_of_none hmoment),
    Reader.run_map_of hnumber]

/-- A text or a number is read as it was spelled, up to the end of the line. -/
theorem run_flat {v : Scalar} (hv : v.Fits) :
    value.flat.run (v.spell ++ '\n' :: rest) = some (v.value, '\n' :: rest) := by
  cases v with
  | text s => exact run_flat_text s (Reader.notNext_cons.mpr rfl)
  | natural n => exact run_flat_natural hv (Reader.notNext_cons.mpr rfl)
  | boolean b => cases b <;> rfl

/-- A scalar begins with a character that is no space and opens neither a bracket nor a brace. -/
theorem Scalar.spell_eq_cons (v : Scalar) :
    ∃ c cs, v.spell = c :: cs ∧ isSpace c = false ∧ c ≠ '[' ∧ c ≠ '\x7b' := by
  cases v with
  | text s =>
    obtain ⟨later, hspell⟩ := (Style.choose s.toList).spell_eq_cons s.toList
    refine ⟨_, _, hspell, ?_⟩
    cases Style.choose s.toList <;> decide
  | natural n =>
    obtain ⟨c, cs, hdigits, hc⟩ := toDigits_eq_cons n
    refine ⟨c, cs, hdigits, ?_, ne_of_isDigit hc rfl, ne_of_isDigit hc rfl⟩
    simp [isSpace, ne_of_isDigit hc (d := ' ') rfl, ne_of_isDigit hc (d := '\t') rfl]
  | boolean b => cases b <;> exact ⟨_, _, rfl, by decide⟩

/-- Every scalar is read back at the end of its line, however deeply brackets may be nested. -/
theorem run_value {v : Scalar} (hv : v.Fits) (depth : Nat) :
    (value depth).run (v.spell ++ '\n' :: rest) = some (v.value, '\n' :: rest) := by
  cases depth with
  | zero => exact run_flat hv
  | succ depth =>
    have hflat : value.flat.run (v.spell ++ '\n' :: rest) = some (v.value, '\n' :: rest) :=
      run_flat hv
    obtain ⟨c, cs, hspell, -, hbracket, hbrace⟩ := v.spell_eq_cons
    rw [hspell, List.cons_append] at hflat ⊢
    rw [value, Reader.run_byNext, if_neg hbracket, if_neg hbrace, hflat]

end PacketWire.Toml
