/-!
# Binary floating point of 64 bits

A finite number of this kind is `m · 2^q` with `m < 2^53` and `-1074 ≤ q ≤ 971`. Two exact
conversions by natural numbers alone connect it with decimals:

* `nearest` gives the number closest to a decimal, of two equally close ones the one with even
  `m`;
* `shortest` gives the decimal with the fewest digits that `nearest` would take back to the
  number, and of several such the one closest to it.
-/

namespace PacketWire.Decimal

/-- The size of a finite number, `m · 2^q`. -/
structure Magnitude where
  m : Nat
  q : Int
  deriving DecidableEq, Repr

inductive Binary64
  | nan
  | infinite (negative : Bool)
  | finite (negative : Bool) (magnitude : Magnitude)
  deriving DecidableEq, Repr

/-- A decimal, `digits · 10^exponent`. -/
structure Scientific where
  digits : Nat
  exponent : Int
  deriving DecidableEq, Repr

/-! ### From a decimal -/

def digitCount (n : Nat) : Nat := (Nat.toDigits 10 n).length

/-- `num / den` rounded to a natural number, a half to the even neighbour. -/
def roundEven (num den : Nat) : Nat :=
  let whole := num / den
  let rest := num % den
  if den < 2 * rest ∨ (den = 2 * rest ∧ whole % 2 = 1) then whole + 1 else whole

/-- `num / den` in units of `2^q`, as a quotient. -/
def inUnits (num den : Nat) (q : Int) : Nat × Nat :=
  (num * Nat.pow 2 (-q).toNat, den * Nat.pow 2 q.toNat)

/-- The exponent for which `num / den` has 53 binary digits before the point, but none below
that of the smallest numbers. -/
def unitExponent (num den : Nat) : Int :=
  let guess := max ((Nat.log2 num : Int) - Nat.log2 den - 52) (-1074)
  let (n, d) := inUnits num den guess
  if n / d < Nat.pow 2 52 then max (guess - 1) (-1074) else guess

/-- The magnitude closest to `num / den`; `none` beyond the largest. -/
def nearestQuotient (num den : Nat) : Option Magnitude :=
  let q := unitExponent num den
  let (n, d) := inUnits num den q
  let m := roundEven n d
  let rounded : Magnitude := if m = Nat.pow 2 53 then ⟨Nat.pow 2 52, q + 1⟩ else ⟨m, q⟩
  if rounded.q ≤ 971 then some rounded else none

/-- The magnitude closest to a decimal; `none` beyond the largest. Decimals far outside the range
are told by their number of digits, before any power of ten is formed. -/
def nearest (x : Scientific) : Option Magnitude :=
  let places := digitCount x.digits + x.exponent
  if x.digits = 0 ∨ places < -330 then some ⟨0, -1074⟩
  else if 330 < places then none
  else nearestQuotient (x.digits * Nat.pow 10 x.exponent.toNat) (Nat.pow 10 (-x.exponent).toNat)

/-! ### To a decimal -/

/-- Half a unit below a magnitude and half a unit above it, in quarters of its unit. Directly
above a power of two the numbers below are twice as close. -/
def Magnitude.bounds (x : Magnitude) : Nat × Nat :=
  (if x.m = Nat.pow 2 52 ∧ -1074 < x.q then 4 * x.m - 1 else 4 * x.m - 2, 4 * x.m + 2)

/-- Compares `p · 10^g` with `n` quarters of `2^q`. -/
def compareQuarters (p : Nat) (g : Int) (n : Nat) (q : Int) : Ordering :=
  compare (4 * p * Nat.pow 10 g.toNat * Nat.pow 2 (-q).toNat)
    (n * Nat.pow 10 (-g).toNat * Nat.pow 2 q.toNat)

/-- The decimals that are closer to this magnitude than to any other; those half-way to a
neighbour count if `m` is even. -/
def Magnitude.admits (x : Magnitude) (p : Nat) (g : Int) : Bool :=
  let low := compareQuarters p g x.bounds.1 x.q
  let high := compareQuarters p g x.bounds.2 x.q
  if x.m % 2 = 0 then low.isGE && high.isLE else low.isGT && high.isLT

/-- The closest admitted multiple of `10^g`: one of the two neighbours of the magnitude on that
grid, of two equally close ones the larger. -/
def Magnitude.onGrid? (x : Magnitude) (g : Int) : Option Scientific :=
  let below := x.m * Nat.pow 2 x.q.toNat * Nat.pow 10 (-g).toNat /
    (Nat.pow 2 (-x.q).toNat * Nat.pow 10 g.toNat)
  let middle := compareQuarters (2 * below + 1) g (8 * x.m) x.q
  match x.admits below g && below ≠ 0, x.admits (below + 1) g with
  | true, true => if middle.isGT then some ⟨below, g⟩ else some ⟨below + 1, g⟩
  | true, false => some ⟨below, g⟩
  | false, true => some ⟨below + 1, g⟩
  | false, false => none

/-- The decimal with the fewest digits that identifies a magnitude: that of the coarsest grid on
which there is one. -/
def shortest (x : Magnitude) : Scientific :=
  if x.m = 0 then ⟨0, 0⟩
  else
    ((List.range 660).findSome? fun i : Nat => x.onGrid? (310 - i)).getD
      ⟨x.m * Nat.pow 2 x.q.toNat * Nat.pow 5 (-x.q).toNat, -(-x.q).toNat⟩

/-! ### Text -/

/-- A decimal with all its places and a point, never with an exponent. -/
def Scientific.positional (x : Scientific) : String :=
  let digits := Nat.toDigits 10 x.digits
  let places := (-x.exponent).toNat
  if places = 0 then
    String.ofList (digits ++ List.replicate x.exponent.toNat '0' ++ ['.', '0'])
  else
    let padded := List.replicate (places + 1 - digits.length) '0' ++ digits
    let whole := padded.length - places
    String.ofList (padded.take whole ++ ['.'] ++ padded.drop whole)

/-- The text of a number: the fewest digits that identify it, written positionally and with a
point. -/
def Binary64.text : Binary64 → String
  | .nan => "NaN"
  | .infinite negative => if negative then "-inf" else "inf"
  | .finite negative magnitude =>
    (if negative then "-" else "") ++ (shortest magnitude).positional

end PacketWire.Decimal
