import PacketWire.Bytes

/-!
# The base64 alphabet

Six bits are written as one of 64 symbols. `value?_eq_some_iff` says that reading a symbol is
exactly the inverse of writing it, so a byte is a symbol of at most one value, and the bytes that
cannot be read are those that are not in the alphabet (`value?_eq_none_iff`).
-/

namespace PacketWire.Base64

abbrev Sextet := Fin 64

/-- The symbols in order of their values: capitals, small letters, digits, plus and slash. -/
def alphabet : List UInt8 :=
  "ABCDEFGHIJKLMNOPQRSTUVWXYZabcdefghijklmnopqrstuvwxyz0123456789+/".toList.map
    fun c => c.toNat.toUInt8

/-- The byte that fills up the last group of four: an equals sign. -/
def pad : UInt8 := 61

def symbol (v : Sextet) : UInt8 := alphabet.getD v.val pad

/-- The value of a symbol; `none` for any other byte, the padding included. -/
def value? (b : UInt8) : Option Sextet := (List.finRange 64).find? fun v => symbol v = b

theorem value?_symbol : ∀ v : Sextet, value? (symbol v) = some v := by decide +kernel

theorem value?_eq_some_iff {b : UInt8} {v : Sextet} : value? b = some v ↔ b = symbol v := by
  refine ⟨fun h => ?_, fun h => h ▸ value?_symbol v⟩
  have found : symbol v = b := by simpa using List.find?_some h
  exact found.symm

theorem symbol_injective {v w : Sextet} (h : symbol v = symbol w) : v = w := by
  have := value?_symbol v
  rw [h, value?_symbol] at this
  exact (Option.some.inj this).symm

theorem value?_pad : value? pad = none := by decide +kernel

theorem mem_alphabet_iff {b : UInt8} : b ∈ alphabet ↔ ∃ v : Sextet, b = symbol v := by
  have hall : alphabet = (List.finRange 64).map symbol := by decide +kernel
  simp only [hall, List.mem_map, List.mem_finRange, true_and, eq_comm]

/-- The bytes that have no value are those that are not in the alphabet. -/
theorem value?_eq_none_iff {b : UInt8} : value? b = none ↔ b ∉ alphabet := by
  simp only [mem_alphabet_iff, ← value?_eq_some_iff, Option.eq_none_iff_forall_ne_some, not_exists,
    ne_eq]

end PacketWire.Base64
