import Mathlib.Algebra.Group.Nat.Defs
import PacketWire.Proofs.Base64.Text

/-!
# Base64 as a run of bits

A text stands for the bits of its symbols, six for each, cut into bytes from the front. This is the
whole meaning of base64; that the reader works on groups of four symbols, and that a short last
group leaves bits over, is only how it gets there (`joined_eq_wholeBytes`).
-/

namespace PacketWire.Base64

/-- The six bits of a sextet, the highest first. -/
def bits (v : Sextet) : List Bool :=
  [v.val.testBit 5, v.val.testBit 4, v.val.testBit 3, v.val.testBit 2, v.val.testBit 1,
    v.val.testBit 0]

/-- The number of a run of bits, the highest first. -/
def ofBits (bits : List Bool) : Nat := bits.foldl (fun n b => 2 * n + b.toNat) 0

/-- The bytes of a run of bits, eight for each; bits left over at the end are dropped. -/
def wholeBytes : List Bool → Bytes
  | a :: b :: c :: d :: e :: f :: g :: h :: rest =>
    UInt8.ofNat (ofBits [a, b, c, d, e, f, g, h]) :: wholeBytes rest
  | _ => []

/-! ### Groups of symbols

A byte takes its bits from two sextets next to each other, split after two, four or six bits of the
second one. -/

theorem foldl_bits (bits : List Bool) (n : Nat) :
    bits.foldl (fun n b => 2 * n + b.toNat) n = n * 2 ^ bits.length + ofBits bits := by
  induction bits generalizing n with
  | nil => simp [ofBits]
  | cons b bits ih =>
    simp only [ofBits, List.foldl_cons, List.length_cons, Nat.pow_succ] at *
    rw [ih, ih (2 * 0 + b.toNat), Nat.add_mul]
    grind

theorem ofBits_append (high low : List Bool) :
    ofBits (high ++ low) = ofBits high * 2 ^ low.length + ofBits low := by
  rw [ofBits, List.foldl_append, foldl_bits]
  rfl

theorem ofBits_bits : ∀ v : Sextet, ofBits (bits v) = v.val := by decide

/-- The first bits of a sextet, up to all six, are the number without the bits behind them. -/
theorem ofBits_take : ∀ n ≤ 6, ∀ v : Sextet, ofBits ((bits v).take n) = v.val / 2 ^ (6 - n) := by
  decide

theorem ofBits_drop : ∀ n ≤ 6, ∀ v : Sextet, ofBits ((bits v).drop n) = v.val % 2 ^ (6 - n) := by
  decide

/-- The first byte of a group ends after two bits of the second symbol. -/
theorem ofNat_bits₁ (v w : Sextet) :
    UInt8.ofNat (ofBits (bits v ++ (bits w).take 2)) = byte (v.val * 4 + w.val / 16) := by
  rw [ofBits_append, ofBits_bits, ofBits_take 2 (by decide)]
  rfl

/-- The second byte of a group ends after four bits of the third symbol. -/
theorem ofNat_bits₂ (v w : Sextet) :
    UInt8.ofNat (ofBits ((bits v).drop 2 ++ (bits w).take 4)) =
      byte (v.val % 16 * 16 + w.val / 4) := by
  rw [ofBits_append, ofBits_drop 2 (by decide), ofBits_take 4 (by decide)]
  rfl

/-- The third byte of a group ends with the fourth symbol. -/
theorem ofNat_bits₃ (v w : Sextet) :
    UInt8.ofNat (ofBits ((bits v).drop 4 ++ bits w)) = byte (v.val % 4 * 64 + w.val) := by
  rw [ofBits_append, ofBits_drop 4 (by decide), ofBits_bits]
  rfl

theorem byte_eq_byte {m n : Nat} (h : m % 256 = n % 256) : byte m = byte n := by
  apply UInt8.toNat_inj.mp
  simpa [byte] using h

/-- Two symbols are one byte, and four bits are left over. -/
theorem wholeBytes_bits₂ (v w : Sextet) : wholeBytes (bits v ++ bits w) = bytesOf [v, w] := by
  show [UInt8.ofNat (ofBits (bits v ++ (bits w).take 2))] = [byte ((v.val * 64 + w.val) / 16)]
  rw [ofNat_bits₁]
  congr 2
  omega

/-- Three symbols are two bytes, and two bits are left over. -/
theorem wholeBytes_bits₃ (v w x : Sextet) :
    wholeBytes (bits v ++ (bits w ++ bits x)) = bytesOf [v, w, x] := by
  show [UInt8.ofNat (ofBits (bits v ++ (bits w).take 2)),
      UInt8.ofNat (ofBits ((bits w).drop 2 ++ (bits x).take 4))] = _
  rw [ofNat_bits₁, ofNat_bits₂, bytesOf, List.cons.injEq, List.cons.injEq]
  refine ⟨byte_eq_byte ?_, byte_eq_byte ?_, rfl⟩ <;> omega

/-- Four symbols are three bytes, whatever follows them. -/
theorem wholeBytes_bits₄ (v w x y : Sextet) (rest : List Bool) :
    wholeBytes (bits v ++ (bits w ++ (bits x ++ (bits y ++ rest)))) =
      bytesOf [v, w, x, y] ++ wholeBytes rest := by
  show UInt8.ofNat (ofBits (bits v ++ (bits w).take 2)) ::
      UInt8.ofNat (ofBits ((bits w).drop 2 ++ (bits x).take 4)) ::
      UInt8.ofNat (ofBits ((bits x).drop 4 ++ bits y)) :: wholeBytes rest = _
  rw [ofNat_bits₁, ofNat_bits₂, ofNat_bits₃, bytesOf]
  simp only [List.cons_append, List.nil_append, List.cons.injEq, and_true]
  refine ⟨byte_eq_byte ?_, byte_eq_byte ?_, byte_eq_byte ?_⟩ <;> omega

/-! ### Any number of symbols -/

/-- Joining symbols in groups of four cuts the bits of all of them into whole bytes. -/
theorem joined_eq_wholeBytes (symbols : List Sextet) :
    joined symbols = wholeBytes (symbols.flatMap bits) := by
  fun_induction joined symbols with
  | case1 v w x y rest ih =>
    simp only [List.flatMap_cons]
    rw [wholeBytes_bits₄, ih]
  | case2 last hlast =>
    match last, hlast with
    | [], _ => rfl
    | [v], _ => rfl
    | [v, w], _ => simpa using (wholeBytes_bits₂ v w).symm
    | [v, w, x], _ => simpa using (wholeBytes_bits₃ v w x).symm
    | v :: w :: x :: y :: rest, h => exact absurd rfl (h v w x y rest)

end PacketWire.Base64
