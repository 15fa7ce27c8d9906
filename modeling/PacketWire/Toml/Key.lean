import PacketWire.Toml.Text

/-!
# Keys, and what stands between them

A key has one or more parts with dots between them, each bare or in quotes. Spaces are free around
every part; line ends and comments are free where a value spreads over several lines.
-/

namespace PacketWire.Toml

/-! ### Spaces, lines and comments -/

def spaces : Reader Unit :=
  Reader.skip (·.dropWhile isSpace) fun _ => (List.dropWhile_sublist isSpace).length_le

def skipComment (input : List Char) : List Char :=
  match input with
  | '#' :: rest => rest.dropWhile fun c => !isControl c
  | _ => input

/-- A text without the spaces, line ends and comments at its front, each comment up to and with
the end of its line. -/
def skipLines (input : List Char) : List Char :=
  match input with
  | [] => []
  | c :: rest =>
    if isSpace c then skipLines rest
    else if c = '#' then
      match _h : afterNewline? (rest.dropWhile fun c => !isControl c) with
      | some after => skipLines after
      | none => c :: rest
    else
      match _h : afterNewline? (c :: rest) with
      | some after => skipLines after
      | none => c :: rest
termination_by input.length
decreasing_by
  · simp
  · have := length_afterNewline?_lt _h
    have := (List.dropWhile_sublist (l := rest) fun c => !isControl c).length_le
    simp only [List.length_cons]
    omega
  · exact length_afterNewline?_lt _h

theorem length_skipComment_le (input : List Char) :
    (skipComment input).length ≤ input.length := by
  unfold skipComment
  split
  · next rest =>
    have := (List.dropWhile_sublist (l := rest) fun c => !isControl c).length_le
    simp only [List.length_cons]
    omega
  · exact Nat.le_refl _

theorem length_skipLines_le (input : List Char) : (skipLines input).length ≤ input.length := by
  fun_induction skipLines input with
  | case1 | case4 | case6 => exact Nat.le_refl _
  | case2 c rest _ ih => exact Nat.le_succ_of_le ih
  | case3 rest after h _ ih =>
    have := length_afterNewline?_lt h
    have := (List.dropWhile_sublist (l := rest) fun c => !isControl c).length_le
    simp only [List.length_cons]
    omega
  | case5 c rest _ _ after h ih =>
    have := length_afterNewline?_lt h
    omega

def lines : Reader Unit := Reader.skip skipLines length_skipLines_le

/-! ### Keys -/

def isBareKey (c : Char) : Bool := c.isAlphanum || c = '-' || c = '_'

def simpleKey : Reader String :=
  Reader.byNext fun c =>
    if c = '"' then Style.basic.reader
    else if c = '\'' then Style.literal.reader
    else String.ofList <$> Reader.takeWhile₁ isBareKey

def maxParts : Nat := 79

/-- A key of one or more parts: the parts on the way and the last one. -/
def dottedKey : Reader (List String × String) := do
  let parts ← Reader.separated '.' do
    spaces
    let key ← simpleKey
    spaces
    return key
  if parts.length ≤ maxParts then
    Reader.ofOption (parts.getLast?.map fun key => (parts.dropLast, key))
  else Reader.fail

end PacketWire.Toml
