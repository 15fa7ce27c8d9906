import Mathlib.Algebra.Group.Nat.Defs
import Mathlib.Data.List.TakeWhile
import PacketWire.Numeral
import PacketWire.Proofs.Text.Blank

/-!
# Numerals of a word

A text is read as a number exactly if it is a numeral of that number, with a plus sign or without,
and a word can hold the number (`parse_eq_ok_iff`). Of other texts it is said what is wrong with
them, and what comes first counts: the digits at the front may already be too many before anything
else than a digit is met (`parse_eq_error_iff`).
-/

namespace PacketWire.Numeral

/-! ### Digits -/

theorem le_ofDigitChars (cs : List Char) (value : Nat) :
    value ≤ Nat.ofDigitChars 10 cs value := by
  induction cs generalizing value with
  | nil => exact Nat.le_refl _
  | cons c cs ih =>
    rw [Nat.ofDigitChars_cons]
    exact Nat.le_trans (by omega) (ih _)

/-- Reading digits onto a value looks at the run of digits at the front, and only then at what
follows it. -/
theorem readDigits_eq {cs : List Char} {value : Nat} (h : value < 2 ^ 64) :
    readDigits value cs =
      if 2 ^ 64 ≤ Nat.ofDigitChars 10 (cs.takeWhile Char.isDigit) value then .error .tooLarge
      else if cs.all Char.isDigit then .ok (Nat.ofDigitChars 10 cs value)
      else .error .badDigit := by
  induction cs generalizing value with
  | nil =>
    have hfits : ¬ 2 ^ 64 ≤ Nat.ofDigitChars 10 [] value := Nat.not_le.mpr h
    rw [readDigits, List.takeWhile_nil, if_neg hfits]
    rfl
  | cons c cs ih =>
    rw [readDigits]
    by_cases hc : c.isDigit
    · have hnext : value * 10 + digitValue c = 10 * value + (c.toNat - '0'.toNat) := by
        rw [digitValue, Nat.mul_comm]
      rw [if_pos hc, List.takeWhile_cons_of_pos hc, Nat.ofDigitChars_cons, Nat.ofDigitChars_cons,
        hnext, List.all_cons, hc, Bool.true_and]
      by_cases hfits : 10 * value + (c.toNat - '0'.toNat) < UInt64.size
      · rw [if_pos hfits]
        exact ih hfits
      · -- Further digits make the value no smaller.
        have hover : 2 ^ 64 ≤ Nat.ofDigitChars 10 (cs.takeWhile Char.isDigit)
            (10 * value + (c.toNat - '0'.toNat)) :=
          Nat.le_trans (Nat.le_of_not_lt hfits) (le_ofDigitChars (cs.takeWhile Char.isDigit) _)
        rw [if_neg hfits, if_pos hover]
    · have hfits : ¬ 2 ^ 64 ≤ Nat.ofDigitChars 10 [] value := Nat.not_le.mpr h
      have hother : ¬ (c :: cs).all Char.isDigit = true := by
        rw [List.all_cons, Bool.and_eq_true, not_and]
        intro hdigit
        exact absurd hdigit hc
      rw [if_neg hc, List.takeWhile_cons_of_neg hc, if_neg hfits, if_neg hother]

/-! ### Signs -/

/-- A numeral without the plus sign that it may have. -/
def unsigned : List Char → List Char
  | '+' :: digits => digits
  | digits => digits

theorem unsigned_of_digits {digits : List Char} (h : ∀ c ∈ digits, c.isDigit = true) :
    unsigned digits = digits := by
  unfold unsigned
  split
  · exact absurd (h '+' List.mem_cons_self) (by decide)
  · rfl

theorem eq_or_eq_plus (cs : List Char) : cs = unsigned cs ∨ cs = '+' :: unsigned cs := by
  unfold unsigned
  split
  · exact .inr rfl
  · exact .inl rfl

/-- After the sign there are the digits to read, or nothing. -/
theorem read_eq {cs : List Char} (h : cs ≠ []) :
    read cs = if unsigned cs = [] then .error .badDigit else readDigits 0 (unsigned cs) := by
  unfold read
  split
  · exact absurd rfl h
  · rfl
  · next digits hsign =>
    have hdigits : unsigned ('+' :: digits) ≠ [] := by
      rintro rfl
      exact hsign rfl
    rw [if_neg hdigits]
    rfl
  · next hplus =>
    have hunsigned : unsigned cs = cs := by
      rcases eq_or_eq_plus cs with hsame | hsign
      · exact hsame.symm
      · exact absurd hsign (hplus _)
    rw [hunsigned, if_neg h]

/-! ### Numerals -/

/-- The text is a numeral of that number: possibly a plus sign, then at least one digit, and a word
can hold the number. -/
def Spells (text : String) (n : Nat) : Prop :=
  ∃ digits, (text.toList = digits ∨ text.toList = '+' :: digits) ∧ digits ≠ [] ∧
    (∀ c ∈ digits, c.isDigit = true) ∧ Nat.ofDigitChars 10 digits 0 = n ∧ n < 2 ^ 64

/-- The value of the digits at the front of a text, behind the plus sign that it may have. -/
def leadingValue (text : String) : Nat :=
  Nat.ofDigitChars 10 ((unsigned text.toList).takeWhile Char.isDigit) 0

/-- What is wrong with a text that is no numeral. The digits at the front may make it too large,
whatever follows them. -/
def Refused (text : String) (cause : Error) : Prop :=
  (¬ ∃ n, Spells text n) ∧
    match cause with
    | .empty => text = ""
    | .badDigit => text ≠ "" ∧ leadingValue text < 2 ^ 64
    | .tooLarge => 2 ^ 64 ≤ leadingValue text

/-- A numeral is a sequence of digits, with one plus in front or none, whose number fits a word. -/
theorem spells_iff {text : String} {n : Nat} :
    Spells text n ↔
      unsigned text.toList ≠ [] ∧ (∀ c ∈ unsigned text.toList, c.isDigit = true) ∧
        Nat.ofDigitChars 10 (unsigned text.toList) 0 = n ∧ n < 2 ^ 64 := by
  constructor
  · rintro ⟨digits, htext, hne, hdigits, hvalue⟩
    have hunsigned : unsigned text.toList = digits := by
      rcases htext with htext | htext
      · rw [htext, unsigned_of_digits hdigits]
      · rw [htext]
        rfl
    rw [hunsigned]
    exact ⟨hne, hdigits, hvalue⟩
  · rintro ⟨hne, hdigits, hvalue⟩
    exact ⟨unsigned text.toList, eq_or_eq_plus _, hne, hdigits, hvalue⟩

/-- A number that a word can hold is spelled by its digits. -/
theorem spells_toString {n : Nat} (h : n < 2 ^ 64) : Spells (toString n) n := by
  refine ⟨Nat.toDigits 10 n, .inl ?_, Nat.toDigits_ne_nil, ?_, ?_, h⟩
  · rw [Nat.toString_eq_ofList_toDigits, String.toList_ofList]
  · intro c hc
    exact Nat.isDigit_of_mem_toDigits (by decide) (by decide) hc
  · exact Nat.ofDigitChars_toDigits (by decide) (by decide)

/-- There are no blanks in a numeral. -/
theorem Spells.trimmed {text : String} {n : Nat} (h : Spells text n) : Text.Trimmed text text := by
  obtain ⟨digits, htext, -, hdigits, -⟩ := h
  have hblank : ∀ c ∈ digits, Text.isBlank c = false := by
    intro c hc
    exact Text.isBlank_of_isDigit (hdigits c hc)
  apply Text.trimmed_self
  rcases htext with htext | htext
  · rw [htext]
    exact hblank
  · rw [htext]
    exact List.forall_mem_cons.mpr ⟨by decide, hblank⟩

/-- A text spells one number at most. -/
theorem Spells.unique {text : String} {m n : Nat} (hm : Spells text m) (hn : Spells text n) :
    m = n := by
  obtain ⟨-, -, rfl, -⟩ := spells_iff.mp hm
  exact (spells_iff.mp hn).2.2.1

/-- A reading comes to a number that the text spells, or to what is wrong with the text. -/
theorem read_decides (text : String) :
    (∃ n, read text.toList = .ok n ∧ Spells text n) ∨
      ∃ cause, read text.toList = .error cause ∧ Refused text cause := by
  by_cases hempty : text.toList = []
  · right
    refine ⟨.empty, by rw [hempty]; rfl, ?_, String.toList_eq_nil_iff.mp hempty⟩
    rintro ⟨n, hn⟩
    rw [spells_iff, hempty] at hn
    exact hn.1 rfl
  · have hne : text ≠ "" := mt String.toList_eq_nil_iff.mpr hempty
    rw [read_eq hempty]
    by_cases hsign : unsigned text.toList = []
    · right
      refine ⟨.badDigit, by rw [if_pos hsign], ?_, hne, ?_⟩
      · rintro ⟨n, hn⟩
        exact (spells_iff.mp hn).1 hsign
      · rw [leadingValue, hsign]
        decide
    · rw [if_neg hsign, readDigits_eq (by decide), ← leadingValue]
      by_cases hdigits : ∀ c ∈ unsigned text.toList, c.isDigit = true
      · have hvalue : leadingValue text = Nat.ofDigitChars 10 (unsigned text.toList) 0 := by
          rw [leadingValue, List.takeWhile_eq_self_iff.mpr hdigits]
        rw [if_pos (List.all_eq_true.mpr hdigits), ← hvalue]
        by_cases hover : 2 ^ 64 ≤ leadingValue text
        · right
          refine ⟨.tooLarge, if_pos hover, ?_, hover⟩
          rintro ⟨n, hn⟩
          obtain ⟨-, -, rfl, hword⟩ := spells_iff.mp hn
          rw [← hvalue] at hword
          exact Nat.not_le.mpr hword hover
        · left
          refine ⟨leadingValue text, if_neg hover, ?_⟩
          exact spells_iff.mpr ⟨hsign, hdigits, hvalue.symm, Nat.lt_of_not_le hover⟩
      · have hother : ¬ ∃ n, Spells text n := by
          rintro ⟨n, hn⟩
          exact hdigits (spells_iff.mp hn).2.1
        rw [if_neg (mt List.all_eq_true.mp hdigits)]
        by_cases hover : 2 ^ 64 ≤ leadingValue text
        · exact .inr ⟨.tooLarge, if_pos hover, hother, hover⟩
        · exact .inr ⟨.badDigit, if_neg hover, hother, hne, Nat.lt_of_not_le hover⟩

theorem Refused.unique {text : String} {cause cause' : Error} (h : Refused text cause)
    (h' : Refused text cause') : cause = cause' := by
  have hempty : ¬ 2 ^ 64 ≤ leadingValue "" := by decide
  cases cause with
  | empty =>
    obtain rfl : text = "" := h.2
    cases cause' with
    | empty => rfl
    | badDigit => exact absurd rfl h'.2.1
    | tooLarge => exact absurd h'.2 hempty
  | badDigit =>
    cases cause' with
    | empty => exact absurd h'.2 h.2.1
    | badDigit => rfl
    | tooLarge => exact absurd h'.2 (Nat.not_le.mpr h.2.2)
  | tooLarge =>
    cases cause' with
    | empty =>
      obtain rfl : text = "" := h'.2
      exact absurd h.2 hempty
    | badDigit => exact absurd h.2 (Nat.not_le.mpr h'.2.2)
    | tooLarge => rfl

/-- A text is read as a number just if it spells that number. -/
theorem read_eq_ok_iff {text : String} {n : Nat} : read text.toList = .ok n ↔ Spells text n := by
  rcases read_decides text with ⟨m, hread, hm⟩ | ⟨cause, hread, hother, -⟩
  · rw [hread, Except.ok.injEq]
    constructor
    · rintro rfl
      exact hm
    · exact hm.unique
  · rw [hread]
    apply iff_of_false nofun
    intro hn
    exact hother ⟨n, hn⟩

/-- A text is read as the number of which it is a numeral. -/
theorem parse_eq_ok_iff {text : String} {n : UInt64} :
    parse text = .ok n ↔ Spells text n.toNat := by
  rw [parse, ← read_eq_ok_iff]
  cases hread : read text.toList with
  | error cause => exact iff_of_false nofun nofun
  | ok m =>
    obtain ⟨-, -, -, -, -, hword⟩ := read_eq_ok_iff.mp hread
    have hm : m.toUInt64.toNat = m := UInt64.toNat_ofNat_of_lt' hword
    rw [Except.ok.injEq]
    show Except.ok m.toUInt64 = .ok n ↔ m = n.toNat
    rw [Except.ok.injEq, ← UInt64.toNat_inj, hm]

/-- Any other text is refused, and there is one reason for it. -/
theorem parse_eq_error_iff {text : String} {cause : Error} :
    parse text = .error cause ↔ Refused text cause := by
  rw [parse]
  rcases read_decides text with ⟨m, hread, hm⟩ | ⟨cause', hread, hrefused⟩
  · rw [hread]
    apply iff_of_false nofun
    rintro ⟨hother, -⟩
    exact hother ⟨m, hm⟩
  · rw [hread]
    show Except.error cause' = .error cause ↔ _
    rw [Except.error.injEq]
    constructor
    · rintro rfl
      exact hrefused
    · exact hrefused.unique

end PacketWire.Numeral
