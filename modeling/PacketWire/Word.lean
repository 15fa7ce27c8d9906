/-!
# Words of 64 bits

Sums and products of words that are only given where they stay in the range of a word, so that they
are the sums and products of the numbers (`add?_eq_some_iff`, `mul?_eq_some_iff`).
-/

namespace PacketWire.Word

def largest : UInt64 := 0xFFFFFFFFFFFFFFFF

def add? (a b : UInt64) : Option UInt64 :=
  if a.toNat + b.toNat < UInt64.size then some (a + b) else none

def mul? (a b : UInt64) : Option UInt64 :=
  if a.toNat * b.toNat < UInt64.size then some (a * b) else none

theorem add?_eq_some_iff {a b c : UInt64} : add? a b = some c ↔ c.toNat = a.toNat + b.toNat := by
  rw [add?]
  split
  · next h =>
    rw [Option.some.injEq, ← UInt64.toNat_inj, UInt64.toNat_add, Nat.mod_eq_of_lt h, eq_comm]
  · next h =>
    refine iff_of_false nofun ?_
    intro hc
    exact h (hc ▸ c.toNat_lt)

theorem mul?_eq_some_iff {a b c : UInt64} : mul? a b = some c ↔ c.toNat = a.toNat * b.toNat := by
  rw [mul?]
  split
  · next h =>
    rw [Option.some.injEq, ← UInt64.toNat_inj, UInt64.toNat_mul, Nat.mod_eq_of_lt h, eq_comm]
  · next h =>
    refine iff_of_false nofun ?_
    intro hc
    exact h (hc ▸ c.toNat_lt)

end PacketWire.Word
