import PacketWire.Decimal.Binary64
import PacketWire.Toml.Text

/-!
# Numbers in a document

Integers have 64 bits with a sign and may be written in four bases; floating-point numbers have a
fraction, an exponent or both, or are one of the words `inf` and `nan`. Underscores may stand
between two digits.
-/

namespace PacketWire.Toml

inductive Number
  | integer (n : Int64)
  | float (x : Decimal.Binary64)
  deriving DecidableEq, Repr

namespace Number

/-- The remaining digits of a run, without the underscores; an underscore has to be followed by
a digit. -/
def moreDigits (isDigit : Char → Bool) : List Char → Option (List Char × List Char)
  | [] => some ([], [])
  | c :: rest =>
    if isDigit c then (moreDigits isDigit rest).map fun r => (c :: r.1, r.2)
    else if c = '_' then
      if rest.head?.any isDigit then moreDigits isDigit rest else none
    else some ([], c :: rest)

theorem length_moreDigits_le {isDigit : Char → Bool} {input digits rest : List Char}
    (h : moreDigits isDigit input = some (digits, rest)) : rest.length ≤ input.length := by
  fun_induction moreDigits isDigit input generalizing digits with
  | case1 | case5 =>
    cases h
    exact Nat.le_refl _
  | case2 c rest' _ ih =>
    obtain ⟨r, hr, heq⟩ := Option.map_eq_some_iff.mp h
    cases heq
    exact Nat.le_succ_of_le (ih hr)
  | case3 rest' _ _ ih => exact Nat.le_succ_of_le (ih h)
  | case4 => cases h

/-- A run of digits with underscores between them, which are dropped. -/
def digitRun (isDigit : Char → Bool) : Reader (List Char) := do
  let c ← Reader.satisfying isDigit
  let cs ← ⟨moreDigits isDigit, length_moreDigits_le⟩
  return c :: cs

def inRange (n : Int) : Option Number :=
  if Int64.minValue.toInt ≤ n ∧ n ≤ Int64.maxValue.toInt then some (.integer (Int64.ofInt n))
  else none

/-- An unsigned integer in a base that its two first characters name. -/
def based (mark : Char) (base : Nat) (isDigit : Char → Bool) : Reader Number := do
  Reader.exactly ['0', mark]
  let digits ← digitRun isDigit
  Reader.ofOption (inRange (ofDigits base digits))

def sign : Reader Bool := do
  match ← Reader.optional (Reader.satisfying fun c => c = '+' || c = '-') with
  | some c => return c = '-'
  | none => return false

/-- The whole part of a decimal number: a zero alone, or digits that do not begin with one. -/
def whole : Reader (List Char) := do
  let c ← Reader.satisfying Char.isDigit
  if c = '0' then return ['0']
  else do
    let cs ← ⟨moreDigits Char.isDigit, length_moreDigits_le⟩
    return c :: cs

def fraction : Reader (List Char) := do
  Reader.char '.'
  digitRun Char.isDigit

def exponent : Reader Int := do
  let _ ← Reader.satisfying fun c => c = 'e' || c = 'E'
  let negative ← sign
  let n := ofDigits 10 (← digitRun Char.isDigit)
  return if negative then -n else n

/-- The closest floating-point number. A decimal below all finite numbers is negative infinity;
one above all of them stands for nothing. -/
def float? (negative : Bool) (digits : List Char) (exponent : Int) : Option Number :=
  match Decimal.nearest ⟨ofDigits 10 digits, exponent⟩ with
  | some m => some (.float (.finite negative m))
  | none => if negative then some (.float (.infinite true)) else none

/-- The number with a sign, digits, possibly a fraction and possibly a power of ten: an integer if
there are digits only. -/
def ofParts (negative : Bool) (digits : List Char) :
    Option (List Char) → Option Int → Option Number
  | none, none =>
    let n : Int := ofDigits 10 digits
    inRange (if negative then -n else n)
  | places, power =>
    let places := places.getD []
    float? negative (digits ++ places) (power.getD 0 - places.length)

/-- A decimal number, or one of the words that stand for a number. -/
def decimal : Reader Number := do
  let negative ← sign
  Reader.byNext fun c =>
    if c = 'i' then do
      Reader.exactly ['i', 'n', 'f']
      return .float (.infinite negative)
    else if c = 'n' then do
      Reader.exactly ['n', 'a', 'n']
      return .float .nan
    else do
      let digits ← whole
      let places ← Reader.optional fraction
      let power ← Reader.optional exponent
      Reader.ofOption (ofParts negative digits places power)

def reader : Reader Number :=
  Reader.orElse (based 'x' 16 isHexDigit) <|
  Reader.orElse (based 'o' 8 fun c => '0' ≤ c && c ≤ '7') <|
  Reader.orElse (based 'b' 2 fun c => c = '0' || c = '1') decimal

end Number

end PacketWire.Toml
