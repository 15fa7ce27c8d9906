import PacketWire.Proofs.Toml.Reader
import PacketWire.Toml.Value

/-!
# Texts read back

Whatever style a text is spelled in, reading the spelling gives the text back (`run_textValue`). The
work is in the four readers of what stands between the quotes: one lemma for each character as it
may be spelled, and one for the quotes that stand directly before the closing ones, which a block
cannot tell apart from them until it sees what follows.
-/

namespace PacketWire.Toml

open Reader (NotNext)

namespace Style

variable {s : Style} {c : Char} {text rest : List Char}

/-! ### One character between the quotes -/

theorem body_of_plain (hquote : c ≠ s.quote) (hescape : ¬ (c = '\\' ∧ s.escapes))
    (hcontrol : isControl c = false) :
    s.body (c :: rest) = (s.body rest).map fun r => (c :: r.1, r.2) := by
  rw [body, if_neg hquote, if_neg hescape, if_neg (by simp [hcontrol])]

theorem body_of_newline (hblock : s.isBlock) :
    s.body ('\n' :: rest) = (s.body rest).map fun r => ('\n' :: r.1, r.2) := by
  have hquote : '\n' ≠ s.quote := by cases s <;> decide
  rw [body, if_neg hquote, if_neg (by simp), if_pos (by decide), if_pos hblock]
  split
  · next after h =>
    cases h
    rfl
  · next h => cases h

theorem body_of_escape {e : Char} {after : List Char} (hs : s.escapes)
    (hcontinuation : s.continuation? rest = none) (he : escape.run rest = some (e, after)) :
    s.body ('\\' :: rest) = (s.body after).map fun r => (e :: r.1, r.2) := by
  have hquote : '\\' ≠ s.quote := by cases s <;> decide
  rw [body, if_neg hquote, if_pos ⟨rfl, hs⟩]
  split
  · next h => simp [hcontinuation] at h
  · split
    · next h =>
      rw [he] at h
      cases h
      rfl
    · next h => simp [he] at h

theorem body_of_quote (h : s.closing? rest = none) :
    s.body (s.quote :: rest) = (s.body rest).map fun r => (s.quote :: r.1, r.2) := by
  rw [body, if_pos rfl, h]

theorem body_of_closing {kept after : List Char} (h : s.closing? rest = some (kept, after)) :
    s.body (s.quote :: rest) = some (kept, after) := by
  rw [body, if_pos rfl, h]

/-! ### Escapes -/

def isLineEnd (c : Char) : Bool := c = '\n' || c = '\r'

theorem afterNewline?_of_notNext (h : NotNext isLineEnd rest) : afterNewline? rest = none := by
  rw [afterNewline?.eq_def]
  split
  · exact absurd (Reader.notNext_cons.mp h) (by decide)
  · exact absurd (Reader.notNext_cons.mp h) (by decide)
  · rfl

/-- An escape does not continue a line. -/
theorem continuation?_eq_none (hspace : isSpace c = false) (hline : isLineEnd c = false) :
    s.continuation? (c :: rest) = none := by
  rw [continuation?, Reader.dropWhile_eq_self (Reader.notNext_cons.mpr hspace),
    afterNewline?_of_notNext (Reader.notNext_cons.mpr hline)]
  exact ite_self none

/-- The hexadecimal digits in the escape of a control character give it back. -/
theorem numberedEscape_spec (hc : isControl c = true) :
    ∃ digits, numberedEscape c = '\\' :: 'u' :: digits ∧ digits.length = 4 ∧
      (∀ d ∈ digits, isHexDigit d = true) ∧ character? (ofDigits 16 digits) = some c := by
  have below : c.toNat < 128 := by
    simp only [isControl, Bool.or_eq_true, Bool.and_eq_true, decide_eq_true_eq] at hc
    omega
  -- All control characters are below 128, so all of them can be tried.
  have all : ∀ n < 128, isControl (Char.ofNat n) = true →
      ((numberedEscape (Char.ofNat n)).drop 2).all isHexDigit = true ∧
        character? (ofDigits 16 ((numberedEscape (Char.ofNat n)).drop 2)) =
          some (Char.ofNat n) := by
    decide +kernel
  have ⟨hdigits, hvalue⟩ := all c.toNat below (by rwa [Char.ofNat_toNat])
  rw [Char.ofNat_toNat] at hdigits hvalue
  exact ⟨_, rfl, rfl, List.all_eq_true.mp hdigits, hvalue⟩

/-- A control character is read from the number that it is spelled with. -/
theorem run_escape_numberedEscape (hc : isControl c = true) (rest : List Char) :
    ∃ digits, numberedEscape c = '\\' :: 'u' :: digits ∧
      escape.run ('u' :: (digits ++ rest)) = some (c, rest) := by
  obtain ⟨digits, hescape, hlength, hdigits, hvalue⟩ := numberedEscape_spec hc
  refine ⟨digits, hescape, ?_⟩
  show (numbered 4).run (digits ++ rest) = some (c, rest)
  rw [numbered, ← hlength, Reader.run_bind_of (Reader.run_exactCount hdigits), hvalue]
  rfl

/-- How a character other than the quote is spelled in double quotes. -/
def spellChar (c : Char) : List Char :=
  match c with
  | '\\' => ['\\', '\\']
  | '\x08' => ['\\', 'b']
  | '\t' => ['\\', 't']
  | '\x0c' => ['\\', 'f']
  | '\r' => ['\\', 'r']
  | '\n' => ['\n']
  | c => if isControl c then numberedEscape c else [c]

/-- A spelled character begins with a backslash, or stands for itself. -/
theorem spellChar_head (c : Char) :
    ∃ d later, spellChar c = d :: later ∧
      (d = '\\' ∨ d = c ∧ (isControl c = false ∨ c = '\n')) := by
  unfold spellChar
  split
  any_goals exact ⟨_, _, rfl, .inl rfl⟩
  · exact ⟨_, _, rfl, .inr ⟨rfl, .inr rfl⟩⟩
  · split
    · exact ⟨_, _, rfl, .inl rfl⟩
    · next hcontrol => exact ⟨_, _, rfl, .inr ⟨rfl, .inl (by simpa using hcontrol)⟩⟩

theorem spellBasic_cons_of_ne {block : Bool} {quotes : Nat} (hc : c ≠ '"') :
    spellBasic block quotes (c :: text) = spellChar c ++ spellBasic block 0 text := by
  rw [spellBasic.eq_def]
  exact if_neg hc

theorem quote_of_escapes (hs : s.escapes) : s.quote = '"' := by
  cases s with
  | basic | basicBlock => rfl
  | literal | literalBlock => cases hs

/-- A spelled character is read as itself. -/
theorem body_spellChar (hs : s.escapes) (hquote : c ≠ '"') (hnewline : c = '\n' → s.isBlock) :
    s.body (spellChar c ++ rest) = (s.body rest).map fun r => (c :: r.1, r.2) := by
  -- Five characters have an escape of a single letter.
  have hbackslash : ∀ d e, escape.run (d :: rest) = some (e, rest) → isSpace d = false →
      isLineEnd d = false → s.body ('\\' :: d :: rest) =
        (s.body rest).map fun r => (e :: r.1, r.2) := by
    intro d e he hspace hline
    exact body_of_escape hs (continuation?_eq_none hspace hline) he
  unfold spellChar
  split
  · exact hbackslash '\\' '\\' rfl rfl rfl
  · exact hbackslash 'b' '\x08' rfl rfl rfl
  · exact hbackslash 't' '\t' rfl rfl rfl
  · exact hbackslash 'f' '\x0c' rfl rfl rfl
  · exact hbackslash 'r' '\r' rfl rfl rfl
  · exact body_of_newline (hnewline rfl)
  · next hc _ _ _ _ _ =>
    split
    · next hcontrol =>
      obtain ⟨digits, hescape, hrun⟩ := run_escape_numberedEscape hcontrol rest
      rw [hescape]
      exact body_of_escape hs (continuation?_eq_none rfl rfl) hrun
    · next hcontrol =>
      exact body_of_plain (by rwa [quote_of_escapes hs]) (fun h => hc h.1) (by simpa using hcontrol)

/-! ### Quotes -/

theorem spellBasic_quote {quotes : Nat} (h : quotes < 2) :
    spellBasic true quotes ('"' :: text) = '"' :: spellBasic true (quotes + 1) text := by
  rw [spellBasic.eq_def]
  exact (if_pos rfl).trans (if_pos ⟨rfl, h⟩)

theorem spellBasic_escaped_quote {block : Bool} {quotes : Nat} (h : ¬ (block ∧ quotes < 2)) :
    spellBasic block quotes ('"' :: text) = '\\' :: '"' :: spellBasic block 0 text := by
  rw [spellBasic.eq_def]
  exact (if_pos rfl).trans (if_neg h)

theorem body_escaped_quote (hs : s.escapes) :
    s.body ('\\' :: '"' :: rest) = (s.body rest).map fun r => ('"' :: r.1, r.2) :=
  body_of_escape hs (continuation?_eq_none rfl rfl) rfl

theorem mark_of_isBlock (hs : s.isBlock) : s.mark = [s.quote, s.quote, s.quote] := if_pos hs

theorem lastQuotes_of_notNext {quote : Char} (h : NotNext (· = quote) rest) :
    lastQuotes quote rest = ([], rest) := by
  match rest, h with
  | [], _ => rfl
  | [a], h =>
    have ha : a ≠ quote := by simpa using h
    exact if_neg ha
  | a :: b :: rest, h =>
    have ha : a ≠ quote := by simpa using h
    exact if_neg ha

/-- A quote in a block, which is not followed by two more, belongs to the text. -/
theorem closing?_of_notNext (hs : s.isBlock) (h : NotNext (· = s.quote) rest) :
    s.closing? rest = none := by
  rw [closing?.eq_def, if_pos hs]
  split
  · next a b rest =>
    have ha : a ≠ s.quote := by simpa using h
    exact if_neg fun hab => ha hab.1
  · rfl

theorem closing?_cons_of_notNext (hs : s.isBlock) (h : NotNext (· = s.quote) rest) :
    s.closing? (c :: rest) = none := by
  rw [closing?.eq_def, if_pos hs]
  cases rest with
  | nil => rfl
  | cons b rest =>
    have hb : b ≠ s.quote := by simpa using h
    exact if_neg fun hab => hb hab.2

/-- Up to two quotes directly before the closing three belong to the text. -/
theorem body_of_last_quotes (count : Nat) (hs : s.isBlock) (hcount : count ≤ 2)
    (hrest : NotNext (· = s.quote) rest) :
    s.body (List.replicate count s.quote ++ (s.mark ++ rest)) =
      some (List.replicate count s.quote, rest) := by
  -- Read from the front, the first three quotes close the text and the others are given back.
  have hlast : lastQuotes s.quote (List.replicate count s.quote ++ rest) =
      (List.replicate count s.quote, rest) := by
    match count, hcount with
    | 0, _ => exact lastQuotes_of_notNext hrest
    | 1, _ =>
      cases rest with
      | nil => exact if_pos rfl
      | cons b rest =>
        have hb : b ≠ s.quote := by simpa using hrest
        exact (if_pos rfl).trans (if_neg hb)
    | 2, _ => exact (if_pos rfl).trans (if_pos rfl)
  have hclosing : s.closing? (s.quote :: s.quote :: (List.replicate count s.quote ++ rest)) =
      some (List.replicate count s.quote, rest) := by
    rw [closing?.eq_def, if_pos hs, ← hlast]
    exact if_pos ⟨rfl, rfl⟩
  have hswap : List.replicate count s.quote ++ (s.mark ++ rest) =
      s.quote :: s.quote :: s.quote :: (List.replicate count s.quote ++ rest) := by
    have hthree : s.mark = List.replicate 3 s.quote := mark_of_isBlock hs
    rw [hthree, ← List.append_assoc, List.replicate_append_replicate, Nat.add_comm,
      ← List.replicate_append_replicate, List.append_assoc]
    rfl
  rw [hswap, body_of_closing hclosing]

/-! ### Whole texts -/

/-- On one line every quote is escaped, so the first that is not ends the text. -/
theorem body_basic (hn : '\n' ∉ text) :
    basic.body (spellBasic false 0 text ++ '"' :: rest) = some (text, rest) := by
  induction text with
  | nil => exact body_of_closing rfl
  | cons c text ih =>
    obtain ⟨hc, htext⟩ : '\n' ≠ c ∧ '\n' ∉ text := by simpa [not_or] using hn
    by_cases hquote : c = '"'
    · subst hquote
      rw [spellBasic_escaped_quote (by simp), List.cons_append, List.cons_append,
        body_escaped_quote rfl, ih htext]
      rfl
    · rw [spellBasic_cons_of_ne hquote, List.append_assoc,
        body_spellChar rfl hquote (fun h => absurd h.symm hc), ih htext]
      rfl

theorem body_literal (htext : ∀ c ∈ text, isControl c = false ∧ c ≠ '\'') :
    literal.body (text ++ '\'' :: rest) = some (text, rest) := by
  induction text with
  | nil => exact body_of_closing rfl
  | cons c text ih =>
    obtain ⟨hcontrol, hquote⟩ := htext c (by simp)
    rw [List.cons_append, body_of_plain hquote (by simp [escapes]) hcontrol,
      ih fun d hd => htext d (by simp [hd])]
    rfl

/-- No quote comes next if the text does not begin with one, or if the next one is escaped. -/
theorem notNext_spellBasic {block : Bool} {quotes : Nat}
    (h : ¬ (block ∧ quotes < 2) ∨ c ≠ '"') :
    NotNext (· = '"') (spellBasic block quotes (c :: text) ++ rest) := by
  by_cases hquote : c = '"'
  · subst hquote
    rw [spellBasic_escaped_quote (h.resolve_right fun hne => hne rfl)]
    exact Reader.notNext_cons.mpr rfl
  · obtain ⟨d, later, hspell, hd⟩ := spellChar_head c
    rw [spellBasic_cons_of_ne hquote, hspell, List.cons_append, List.cons_append,
      Reader.notNext_cons, decide_eq_false_iff_not]
    rintro rfl
    rcases hd with hd | ⟨hd, -⟩
    · exact absurd hd (by decide)
    · exact hquote hd.symm

/-- A quote that was not escaped is not followed by two more, unless the text ends directly after
the next one. -/
theorem closing?_spellBasic {quotes : Nat} (hquotes : 0 < quotes)
    (hlast : ¬ (c = '"' ∧ text = [] ∧ quotes < 2)) :
    basicBlock.closing? (spellBasic true quotes (c :: text) ++ (basicBlock.mark ++ rest)) =
      none := by
  by_cases hquote : c = '"' ∧ quotes < 2
  · obtain ⟨rfl, htwo⟩ := hquote
    rw [spellBasic_quote htwo]
    cases text with
    | nil => exact absurd ⟨rfl, rfl, htwo⟩ hlast
    | cons d text =>
      -- One quote stands before, this is the second, so a third in a row would be escaped.
      exact closing?_cons_of_notNext rfl (notNext_spellBasic (.inl fun h => by omega))
  · exact closing?_of_notNext rfl (notNext_spellBasic (by grind))

/-- A block of a basic text is read as it was spelled, with quotes and escapes. -/
theorem body_basicBlock {quotes : Nat} (hrest : NotNext (· = '"') rest) :
    basicBlock.body (spellBasic true quotes text ++ (basicBlock.mark ++ rest)) =
      some (text, rest) := by
  -- The induction goes over all counts of quotes before, since each character changes the count.
  induction text generalizing quotes with
  | nil => exact body_of_last_quotes 0 rfl (by decide) hrest
  | cons c text ih =>
    by_cases hquote : c = '"'
    · subst hquote
      by_cases hquotes : quotes < 2
      · rw [spellBasic_quote hquotes, List.cons_append]
        -- A quote that stands as itself is one of the last of the text, or does not end it.
        rcases text with _ | ⟨d, text⟩
        · exact body_of_last_quotes 1 rfl (by decide) hrest
        · by_cases hlast : d = '"' ∧ text = [] ∧ quotes + 1 < 2
          · obtain ⟨rfl, rfl, htwo⟩ := hlast
            rw [spellBasic_quote htwo]
            exact body_of_last_quotes 2 rfl (by decide) hrest
          · refine (body_of_quote (closing?_spellBasic (by omega) hlast)).trans ?_
            rw [ih]
            rfl
      · rw [spellBasic_escaped_quote (by simpa using hquotes), List.cons_append, List.cons_append,
          body_escaped_quote rfl, ih]
        rfl
    · rw [spellBasic_cons_of_ne hquote, List.append_assoc, body_spellChar rfl hquote fun _ => rfl,
        ih]
      rfl

theorem hasTriple_of_cons {quote : Char} (h : hasTriple quote (c :: text) = false) :
    hasTriple quote text = false := by
  match text, h with
  | [], _ | [_], _ => rfl
  | a :: b :: text, h =>
    rw [hasTriple, Bool.or_eq_false_iff] at h
    exact h.2

theorem closing?_literalBlock (htriple : hasTriple '\'' ('\'' :: c :: text) = false)
    (hlast : ¬ (c = '\'' ∧ text = [])) :
    literalBlock.closing? (c :: text ++ (literalBlock.mark ++ rest)) = none := by
  by_cases hquote : c = '\''
  · rcases text with _ | ⟨d, text⟩
    · exact absurd ⟨hquote, rfl⟩ hlast
    · have hd : d ≠ '\'' := by
        rintro rfl
        simp [hasTriple, hquote] at htriple
      exact closing?_cons_of_notNext rfl (Reader.notNext_cons.mpr (decide_eq_false hd))
  · exact closing?_of_notNext rfl (Reader.notNext_cons.mpr (decide_eq_false hquote))

/-- A literal block is read as it stands. -/
theorem body_literalBlock (htext : ∀ c ∈ text, isControl c = true → c = '\n')
    (htriple : hasTriple '\'' text = false) (hrest : NotNext (· = '\'') rest) :
    literalBlock.body (text ++ (literalBlock.mark ++ rest)) = some (text, rest) := by
  induction text with
  | nil => exact body_of_last_quotes 0 rfl (by decide) hrest
  | cons c text ih =>
    have ih := ih (fun d hd => htext d (by simp [hd])) (hasTriple_of_cons htriple)
    rw [List.cons_append]
    by_cases hquote : c = '\''
    · subst hquote
      rcases text with _ | ⟨d, text⟩
      · exact body_of_last_quotes 1 rfl (by decide) hrest
      · by_cases hlast : d = '\'' ∧ text = []
        · obtain ⟨rfl, rfl⟩ := hlast
          exact body_of_last_quotes 2 rfl (by decide) hrest
        · exact (body_of_quote (closing?_literalBlock htriple hlast)).trans
            (congrArg (Option.map _) ih)
    · by_cases hn : c = '\n'
      · subst hn
        rw [body_of_newline rfl, ih]
        rfl
      · have hcontrol : isControl c = false :=
          Bool.eq_false_iff.mpr fun h => hn (htext c (by simp) h)
        rw [body_of_plain hquote (by simp [escapes]) hcontrol, ih]
        rfl

/-! ### The choice of a style -/

/-- The texts that can be spelled in a style. -/
def Holds (s : Style) (text : List Char) : Prop :=
  match s with
  | .basic => '\n' ∉ text
  | .literal => ∀ c ∈ text, isControl c = false ∧ c ≠ '\''
  | .basicBlock => True
  | .literalBlock => (∀ c ∈ text, isControl c = true → c = '\n') ∧ hasTriple '\'' text = false

/-- The chosen style can hold the text. -/
theorem holds_choose (text : List Char) : (choose text).Holds text := by
  have hcontrol : (text.any fun c => isControl c && c ≠ '\n') = false →
      ∀ c ∈ text, isControl c = true → c = '\n' := by
    intro h c hc hcontrol
    simpa [hcontrol] using List.any_eq_false.mp h c hc
  simp only [choose, Bool.and_eq_true, Bool.not_eq_true']
  split
  · next h => simpa [Holds] using h.2
  · split
    · next h =>
      -- No control character but line ends, and no line ends.
      obtain ⟨⟨hcontrols, hquote⟩, hnewline⟩ := h
      intro c hc
      simp only [List.contains_eq_mem, decide_eq_false_iff_not] at hquote hnewline
      refine ⟨Bool.eq_false_iff.mpr fun h => ?_, fun h => hquote (h ▸ hc)⟩
      exact hnewline (hcontrol hcontrols c hc h ▸ hc)
    · split
      · trivial
      · split
        · next h => exact ⟨hcontrol h.1, h.2⟩
        · split
          · trivial
          · next h => simpa [Holds] using h

/-- What a style can hold is read back up to the closing quotes. -/
theorem body_inside (h : s.Holds text) (hrest : NotNext (· = s.quote) rest) :
    s.body (s.inside text ++ (s.mark ++ rest)) = some (text, rest) := by
  cases s with
  | basic => exact body_basic h
  | literal => exact body_literal h
  | basicBlock => exact body_basicBlock hrest
  | literalBlock => exact body_literalBlock h.1 h.2 hrest

/-! ### Texts in quotes -/

theorem run_newline_of_notNext (h : NotNext isLineEnd rest) : newline.run rest = none := by
  show (afterNewline? rest).map _ = none
  rw [afterNewline?_of_notNext h]
  rfl

theorem isLineEnd_of_isControl (h : isControl c = false) : isLineEnd c = false := by
  simp only [isLineEnd, Bool.or_eq_false_iff, decide_eq_false_iff_not]
  constructor
  · rintro rfl
    exact absurd h (by decide)
  · rintro rfl
    exact absurd h (by decide)

/-- A block that holds no line end does not begin with one, however it is spelled. -/
theorem notNext_inside (h : s.Holds text) (hs : s.isBlock) (hn : '\n' ∉ text) :
    NotNext isLineEnd (s.inside text ++ (s.mark ++ rest)) := by
  have hquote : isLineEnd s.quote = false := by cases s <;> decide
  have hmark : NotNext isLineEnd (s.mark ++ rest) := by
    rw [mark_of_isBlock hs]
    exact Reader.notNext_cons.mpr hquote
  cases text with
  | nil => simpa [inside, spellBasic] using hmark
  | cons c text =>
    obtain ⟨hc, -⟩ : '\n' ≠ c ∧ '\n' ∉ text := by simpa [not_or] using hn
    cases s with
    | basic | literal => cases hs
    | basicBlock =>
      show NotNext isLineEnd (spellBasic true 0 (c :: text) ++ _)
      by_cases hq : c = '"'
      · subst hq
        rw [spellBasic_quote (by decide)]
        exact Reader.notNext_cons.mpr hquote
      · obtain ⟨d, later, hspell, hd⟩ := spellChar_head c
        rw [spellBasic_cons_of_ne hq, hspell]
        refine Reader.notNext_cons.mpr ?_
        rcases hd with rfl | ⟨rfl, hd | hd⟩
        · decide
        · exact isLineEnd_of_isControl hd
        · exact absurd hd.symm hc
    | literalBlock =>
      apply Reader.notNext_cons.mpr
      apply isLineEnd_of_isControl
      rw [Bool.eq_false_iff]
      intro hcontrol
      exact hc (h.1 c (by simp) hcontrol).symm

/-- Every style reads the texts that it can hold as it spells them. -/
theorem run_reader (h : s.Holds text) (hrest : NotNext (· = s.quote) rest) :
    s.reader.run (s.spell text ++ rest) = some (String.ofList text, rest) := by
  have hbody := body_inside h hrest
  rw [reader, spell, List.append_assoc, List.append_assoc, List.append_assoc,
    Reader.run_bind_of (Reader.run_exactly s.mark)]
  by_cases hs : s.isBlock
  · rw [if_pos hs]
    by_cases hn : '\n' ∈ text
    · have hopening : (Reader.optional newline).run ('\n' :: (s.inside text ++ (s.mark ++ rest))) =
          some (some (), s.inside text ++ (s.mark ++ rest)) := Reader.run_optional_of rfl
      rw [if_pos ⟨hs, hn⟩, List.singleton_append, Reader.run_bind_of hopening]
      exact Reader.run_map_of hbody
    · have hnext : NotNext isLineEnd (s.inside text ++ (s.mark ++ rest)) := notNext_inside h hs hn
      rw [if_neg fun hb => hn hb.2, List.nil_append,
        Reader.run_bind_of (Reader.run_optional_of_none (run_newline_of_notNext hnext))]
      exact Reader.run_map_of hbody
  · rw [if_neg hs, if_neg fun hb => hs hb.1, List.nil_append]
    exact Reader.run_map_of hbody

/-- One or two quotes do not open a block. -/
theorem run_reader_of_few_quotes (hs : s.isBlock)
    (h : NotNext (· = s.quote) rest ∨
      ∃ later, rest = s.quote :: later ∧ NotNext (· = s.quote) later) :
    s.reader.run (s.quote :: rest) = none := by
  rw [reader, mark_of_isBlock hs]
  apply Reader.run_bind_of_none
  rw [Reader.run_exactly_cons]
  rcases h with hnext | ⟨later, rfl, hnext⟩
  · exact Reader.run_exactly_of_notNext hnext
  · rw [Reader.run_exactly_cons]
    exact Reader.run_exactly_of_notNext hnext

theorem spell_eq_cons (s : Style) (text : List Char) :
    ∃ later, s.spell text = s.quote :: later := by
  cases s <;> exact ⟨_, rfl⟩

/-- A style does not read what is spelled with the other quote. -/
theorem run_reader_of_quote_ne {other : Style} (h : other.quote ≠ s.quote) :
    s.reader.run (other.spell text ++ rest) = none := by
  obtain ⟨later, hspell⟩ := other.spell_eq_cons text
  have hmark : ∃ marks, s.mark = s.quote :: marks := by cases s <;> exact ⟨_, rfl⟩
  obtain ⟨marks, hmark⟩ := hmark
  rw [reader, hmark, hspell]
  exact Reader.run_bind_of_none (Reader.run_exactly_of_ne h)

theorem spell_of_line (hs : s.isBlock = false) :
    s.spell text ++ rest = s.quote :: (s.inside text ++ s.quote :: rest) := by
  simp [spell, mark, hs]

end Style

def isQuote (c : Char) : Bool := c = '"' || c = '\''

open Style in
/-- A text reads back in every style that can hold it, whatever other styles are tried before. -/
theorem run_textValue_spell {s : Style} {text rest : List Char} (h : s.Holds text)
    (hrest : NotNext isQuote rest) :
    textValue.run (s.spell text ++ rest) = some (String.ofList text, rest) := by
  have hrest' : NotNext (· = s.quote) rest := by
    intro c hc
    have := hrest c hc
    cases s <;> simp_all [isQuote, quote]
  have hself := run_reader h hrest'
  cases s with
  | basicBlock => exact Reader.run_orElse_of hself
  | literalBlock =>
    rw [textValue, Reader.run_orElse_of_none (run_reader_of_quote_ne (by decide))]
    exact Reader.run_orElse_of hself
  | basic =>
    -- The opening quote and what follows it are not taken for the opening of a block.
    have hfew : basicBlock.reader.run (basic.spell text ++ rest) = none := by
      rw [spell_of_line rfl]
      apply run_reader_of_few_quotes rfl
      cases text with
      | nil => exact .inr ⟨rest, rfl, hrest'⟩
      | cons c text => exact .inl (notNext_spellBasic (.inl (by simp [isBlock])))
    rw [textValue, Reader.run_orElse_of_none hfew,
      Reader.run_orElse_of_none (run_reader_of_quote_ne (by decide))]
    exact Reader.run_orElse_of hself
  | literal =>
    have hfew : literalBlock.reader.run (literal.spell text ++ rest) = none := by
      rw [spell_of_line rfl]
      apply run_reader_of_few_quotes rfl
      cases text with
      | nil => exact .inr ⟨rest, rfl, hrest'⟩
      | cons c text => exact .inl (Reader.notNext_cons.mpr (decide_eq_false (h c (by simp)).2))
    rw [textValue, Reader.run_orElse_of_none (run_reader_of_quote_ne (by decide)),
      Reader.run_orElse_of_none hfew,
      Reader.run_orElse_of_none (run_reader_of_quote_ne (by decide)), hself]

/-- Every text reads back. -/
theorem run_textValue (s : String) {rest : List Char} (hrest : NotNext isQuote rest) :
    textValue.run (spellText s ++ rest) = some (s, rest) := by
  rw [spellText, run_textValue_spell (Style.holds_choose s.toList) hrest, String.ofList_toList]

end PacketWire.Toml
