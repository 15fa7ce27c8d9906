import PacketWire.Base64.Symbol

/-!
# Groups of 24 bits

Three bytes and four sextets are two ways to cut the same 24 bits. A shorter last group keeps
one or two bytes in two or three sextets; the bits left over are written as zero and dropped
when read. `bytesOf_sextets₁`, `bytesOf_sextets₂` and `bytesOf_sextets₃` say that cutting into sextets
and back loses nothing.
-/

namespace PacketWire.Base64

def sextet (n : Nat) : Sextet := ⟨n % 64, Nat.mod_lt _ (by decide)⟩

def byte (n : Nat) : UInt8 := UInt8.ofNat n

/-! ### Cutting bytes into sextets -/

/-- One byte in two sextets; the four bits left over are zero. -/
def sextets₁ (a : UInt8) : List Sextet :=
  let n := a.toNat * 16
  [sextet (n / 64), sextet n]

/-- Two bytes in three sextets; the two bits left over are zero. -/
def sextets₂ (a b : UInt8) : List Sextet :=
  let n := (a.toNat * 256 + b.toNat) * 4
  [sextet (n / 4096), sextet (n / 64), sextet n]

def sextets₃ (a b c : UInt8) : List Sextet :=
  let n := (a.toNat * 256 + b.toNat) * 256 + c.toNat
  [sextet (n / 262144), sextet (n / 4096), sextet (n / 64), sextet n]

/-! ### Joining sextets to whole bytes -/

/-- The whole bytes of up to four sextets: two hold one, three hold two, four hold three. -/
def bytesOf : List Sextet → Bytes
  | [v, w] =>
    let n := v.val * 64 + w.val
    [byte (n / 16)]
  | [v, w, x] =>
    let n := (v.val * 64 + w.val) * 64 + x.val
    [byte (n / 1024), byte (n / 4)]
  | [v, w, x, y] =>
    let n := ((v.val * 64 + w.val) * 64 + x.val) * 64 + y.val
    [byte (n / 65536), byte (n / 256), byte n]
  | _ => []

theorem byte_eq {n : Nat} {a : UInt8} (h : n % 256 = a.toNat) : byte n = a := by
  apply UInt8.toNat_inj.mp
  simpa [byte] using h

theorem bytesOf_sextets₁ (a : UInt8) : bytesOf (sextets₁ a) = [a] := by
  have := a.toNat_lt
  simp only [sextets₁, sextet, bytesOf, List.cons.injEq, and_true]
  apply byte_eq
  omega

theorem bytesOf_sextets₂ (a b : UInt8) : bytesOf (sextets₂ a b) = [a, b] := by
  have := a.toNat_lt
  have := b.toNat_lt
  simp only [sextets₂, sextet, bytesOf, List.cons.injEq, and_true]
  constructor <;> apply byte_eq <;> omega

theorem bytesOf_sextets₃ (a b c : UInt8) : bytesOf (sextets₃ a b c) = [a, b, c] := by
  have := a.toNat_lt
  have := b.toNat_lt
  have := c.toNat_lt
  simp only [sextets₃, sextet, bytesOf, List.cons.injEq, and_true]
  refine ⟨?_, ?_, ?_⟩ <;> apply byte_eq <;> omega

end PacketWire.Base64
