import PacketWire.Base64.Group

/-!
# Writing base64

Bytes are taken three at a time, each group written as four symbols. A last group of one or two
bytes is filled up with padding, so that the text is always whole groups of four.
-/

namespace PacketWire.Base64

/-- The padded base64 text of the bytes. -/
def encode : Bytes → Bytes
  | a :: b :: c :: rest => (sextets₃ a b c).map symbol ++ encode rest
  | [a, b] => (sextets₂ a b).map symbol ++ [pad]
  | [a] => (sextets₁ a).map symbol ++ [pad, pad]
  | [] => []

theorem length_encode (bytes : Bytes) : (encode bytes).length = (bytes.length + 2) / 3 * 4 := by
  fun_induction encode bytes with
  | case1 a b c rest ih => simp [sextets₃, ih]; omega
  | case2 | case3 | case4 => simp [sextets₂, sextets₁]

end PacketWire.Base64
