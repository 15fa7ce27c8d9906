import PacketWire.Toml.Reader

/-!
# Texts in a document

A text stands between quotes of one of four styles. In double quotes a backslash begins an
escape; in single quotes every character stands for itself. Three quotes in place of one make a
block, which may hold line ends and up to two quotes in a row.

Reading takes a text of any style (`Style.reader`). Writing chooses the plainest style that can
hold the text (`Style.choose`) and spells the text in it (`Style.spell`).
-/

namespace PacketWire.Toml

/-! ### Characters -/

/-- A control character: only a tabulator may stand as itself. -/
def isControl (c : Char) : Bool := (c.toNat < 0x20 && c ≠ '\t') || c.toNat = 0x7F

def isSpace (c : Char) : Bool := c = ' ' || c = '\t'

/-- What follows a line end, if the text begins with one. -/
def afterNewline? : List Char → Option (List Char)
  | '\n' :: rest => some rest
  | '\r' :: '\n' :: rest => some rest
  | _ => none

/-- A text without the spaces and line ends at its front. -/
def dropBlankLines : List Char → List Char
  | '\r' :: '\n' :: rest => dropBlankLines rest
  | c :: rest => if isSpace c || c = '\n' then dropBlankLines rest else c :: rest
  | [] => []

theorem length_afterNewline?_lt {input rest : List Char} (h : afterNewline? input = some rest) :
    rest.length < input.length := by
  unfold afterNewline? at h
  split at h <;> cases h <;> simp only [List.length_cons] <;> omega

theorem length_dropBlankLines_le (input : List Char) :
    (dropBlankLines input).length ≤ input.length := by
  fun_induction dropBlankLines input with
  | case1 rest ih => simp only [List.length_cons]; omega
  | case2 c rest _ _ ih => simp only [List.length_cons]; omega
  | case3 | case4 => exact Nat.le_refl _

def newline : Reader Unit where
  run input := (afterNewline? input).map fun rest => ((), rest)
  length_le := by
    intro input x rest h
    obtain ⟨after, ha, heq⟩ := Option.map_eq_some_iff.mp h
    cases heq
    exact Nat.le_of_lt (length_afterNewline?_lt ha)

/-! ### Escapes -/

def hexValue? (c : Char) : Option Nat :=
  if c.isDigit then some (c.toNat - '0'.toNat)
  else if 'a' ≤ c ∧ c ≤ 'f' then some (c.toNat - 'a'.toNat + 10)
  else if 'A' ≤ c ∧ c ≤ 'F' then some (c.toNat - 'A'.toNat + 10)
  else none

def isHexDigit (c : Char) : Bool := (hexValue? c).isSome

def ofDigits (base : Nat) (digits : List Char) : Nat :=
  digits.foldl (fun n c => n * base + (hexValue? c).getD 0) 0

/-- The character of that number; surrogates and numbers above U+10FFFF have none. -/
def character? (n : Nat) : Option Char :=
  if n < 0xD800 ∨ (0xDFFF < n ∧ n < 0x110000) then some (Char.ofNat n) else none

/-- The character of a number with exactly that many hexadecimal digits. -/
def numbered (digits : Nat) : Reader Char := do
  let digits ← Reader.exactCount isHexDigit digits
  Reader.ofOption (character? (ofDigits 16 digits))

/-- What a backslash and the characters after it stand for; the backslash has been read. -/
def escape : Reader Char := do
  match ← Reader.any with
  | 'b' => return '\x08'
  | 't' => return '\t'
  | 'n' => return '\n'
  | 'f' => return '\x0c'
  | 'r' => return '\r'
  | '"' => return '"'
  | '\\' => return '\\'
  | 'u' => numbered 4
  | 'U' => numbered 8
  | _ => Reader.fail

/-! ### Styles -/

inductive Style
  | basic
  | literal
  | basicBlock
  | literalBlock
  deriving DecidableEq, Repr

namespace Style

def quote : Style → Char
  | .basic | .basicBlock => '"'
  | .literal | .literalBlock => '\''

def escapes : Style → Bool
  | .basic | .basicBlock => true
  | .literal | .literalBlock => false

def isBlock : Style → Bool
  | .basicBlock | .literalBlock => true
  | .basic | .literal => false

def mark (s : Style) : List Char :=
  if s.isBlock then [s.quote, s.quote, s.quote] else [s.quote]

/-! ### Reading -/

/-- The quotes that still belong to a block directly before its closing three, at most two, and
what follows. The closing three have been read. -/
def lastQuotes (quote : Char) : List Char → List Char × List Char
  | [] => ([], [])
  | [a] => if a = quote then ([a], []) else ([], [a])
  | a :: b :: rest =>
    if a = quote then if b = quote then ([a, b], rest) else ([a], b :: rest)
    else ([], a :: b :: rest)

/-- Whether a quote that has just been read ends the text: the quotes that still belong to the
text, and what follows. A quote in a block that no two more follow does not end it. -/
def closing? (s : Style) (rest : List Char) : Option (List Char × List Char) :=
  if s.isBlock then
    match rest with
    | a :: b :: rest =>
      if a = s.quote ∧ b = s.quote then some (lastQuotes s.quote rest) else none
    | _ => none
  else some ([], rest)

/-- What follows a backslash at the end of a line of a block, the line ends and spaces after it
included. -/
def continuation? (s : Style) (rest : List Char) : Option (List Char) :=
  if s.isBlock then (afterNewline? (rest.dropWhile isSpace)).map dropBlankLines else none

theorem length_lastQuotes_le (quote : Char) (input : List Char) :
    (lastQuotes quote input).2.length ≤ input.length := by
  unfold lastQuotes
  split
  · exact Nat.le_refl _
  · split <;> simp
  · split
    · split <;> simp only [List.length_cons] <;> omega
    · exact Nat.le_refl _

theorem length_closing?_le {s : Style} {rest after kept : List Char}
    (h : s.closing? rest = some (kept, after)) : after.length ≤ rest.length := by
  unfold closing? at h
  split at h
  · split at h
    · next a b rest =>
      split at h
      · have := length_lastQuotes_le s.quote rest
        rw [Option.some.inj h] at this
        exact Nat.le_succ_of_le (Nat.le_succ_of_le this)
      · cases h
    · cases h
  · cases h
    exact Nat.le_refl _

theorem length_continuation?_lt {s : Style} {rest after : List Char}
    (h : s.continuation? rest = some after) : after.length < rest.length := by
  unfold continuation? at h
  split at h
  · obtain ⟨mid, hm, rfl⟩ := Option.map_eq_some_iff.mp h
    have := length_afterNewline?_lt hm
    have := length_dropBlankLines_le mid
    have := (List.dropWhile_sublist (l := rest) isSpace).length_le
    omega
  · cases h

/-- A text up to its closing quotes, and what follows them. -/
def body (s : Style) (input : List Char) : Option (List Char × List Char) :=
  match input with
  | [] => none
  | c :: rest =>
    if c = s.quote then
      match s.closing? rest with
      | some (kept, after) => some (kept, after)
      -- a quote inside a block
      | none => (body s rest).map fun r => (c :: r.1, r.2)
    else if c = '\\' ∧ s.escapes then
      match _hc : s.continuation? rest with
      | some after => body s after
      | none =>
        match _he : escape.run rest with
        | some (e, after) => (body s after).map fun r => (e :: r.1, r.2)
        | none => none
    else if isControl c then
      -- Of the control characters only line ends may stand in a block, none in a line.
      if s.isBlock then
        match _hn : afterNewline? (c :: rest) with
        | some after => (body s after).map fun r => ('\n' :: r.1, r.2)
        | none => none
      else none
    else (body s rest).map fun r => (c :: r.1, r.2)
termination_by input.length
decreasing_by
  · simp
  · have := length_continuation?_lt _hc
    simp only [List.length_cons]
    omega
  · have := escape.length_le _he
    simp only [List.length_cons]
    omega
  · exact length_afterNewline?_lt _hn
  · simp

theorem length_body_le {s : Style} {input rest : List Char} {text : List Char}
    (h : s.body input = some (text, rest)) : rest.length ≤ input.length := by
  fun_induction body s input generalizing text with
  | case1 | case6 | case8 | case9 => cases h
  | case2 rest' kept after hc =>
    cases h
    have := length_closing?_le hc
    simp only [List.length_cons]
    omega
  | case3 rest' hc ih =>
    obtain ⟨r, hr, heq⟩ := Option.map_eq_some_iff.mp h
    cases heq
    have := ih hr
    simp only [List.length_cons]
    omega
  | case4 c rest' _ _ after hc ih =>
    have := ih h
    have := length_continuation?_lt hc
    simp only [List.length_cons]
    omega
  | case5 c rest' _ _ _ e after he ih =>
    obtain ⟨r, hr, heq⟩ := Option.map_eq_some_iff.mp h
    cases heq
    have := ih hr
    have := escape.length_le he
    simp only [List.length_cons]
    omega
  | case7 c rest' _ _ _ _ after hn ih =>
    obtain ⟨r, hr, heq⟩ := Option.map_eq_some_iff.mp h
    cases heq
    have := ih hr
    have := length_afterNewline?_lt hn
    omega
  | case10 c rest' _ _ _ ih =>
    obtain ⟨r, hr, heq⟩ := Option.map_eq_some_iff.mp h
    cases heq
    have := ih hr
    simp only [List.length_cons]
    omega

/-- A text of that style, from its opening quotes on. A line end directly after the opening
quotes of a block is not part of it. -/
def reader (s : Style) : Reader String := do
  Reader.exactly s.mark
  if s.isBlock then
    let _ ← Reader.optional newline
  String.ofList <$> ⟨s.body, length_body_le⟩

/-! ### Writing -/

/-- The two lower digits of a number below 256 in capital hexadecimal, after two zeros. -/
def numberedEscape (c : Char) : List Char :=
  ['\\', 'u', '0', '0', (Nat.digitChar (c.toNat / 16)).toUpper,
    (Nat.digitChar (c.toNat % 16)).toUpper]

/-- The characters inside double quotes, spelled so that they read back. In a block line ends
stand as they are, and so do quotes, of which every third in a row is escaped; `quotes` counts
those directly before. -/
def spellBasic (block : Bool) (quotes : Nat) : List Char → List Char
  | [] => []
  | c :: rest =>
    if c = '"' then
      if block ∧ quotes < 2 then c :: spellBasic block (quotes + 1) rest
      else '\\' :: c :: spellBasic block 0 rest
    else
      let spelled :=
        match c with
        | '\\' => ['\\', '\\']
        | '\x08' => ['\\', 'b']
        | '\t' => ['\\', 't']
        | '\x0c' => ['\\', 'f']
        | '\r' => ['\\', 'r']
        | '\n' => ['\n']
        | c => if isControl c then numberedEscape c else [c]
      spelled ++ spellBasic block 0 rest

def inside (s : Style) (text : List Char) : List Char :=
  if s.escapes then spellBasic s.isBlock 0 text else text

/-- A text in quotes. A block that holds a line end begins on a line of its own. -/
def spell (s : Style) (text : List Char) : List Char :=
  s.mark ++ (if s.isBlock ∧ '\n' ∈ text then ['\n'] else []) ++ s.inside text ++ s.mark

/-- Three of a character in a row occur somewhere. -/
def hasTriple (c : Char) : List Char → Bool
  | a :: b :: d :: rest => (a = c && b = c && d = c) || hasTriple c (b :: d :: rest)
  | _ => false

/-- The plainest style that can hold a text: double quotes where nothing has to be escaped, then
single quotes, then the two blocks, and double quotes with escapes where nothing else does. -/
def choose (text : List Char) : Style :=
  let control := text.any fun c => isControl c && c ≠ '\n'
  let newline := text.contains '\n'
  let backslash := text.contains '\\'
  if !control && !backslash && !text.contains '"' && !newline then .basic
  else if !control && !text.contains '\'' && !newline then .literal
  else if !control && !backslash && !hasTriple '"' text then .basicBlock
  else if !control && !hasTriple '\'' text then .literalBlock
  else if newline then .basicBlock
  else .basic

end Style

def spellText (text : String) : List Char :=
  (Style.choose text.toList).spell text.toList

end PacketWire.Toml
